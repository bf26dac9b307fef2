import Intake.Proofs.Session.Looking

/-!
# Reruns

A rerun is a fresh start of the model's step.

There are two groups.

* Answers.  `Office.LeadsTo` is what becomes of a session until its model is
  asked again; `reflects_of_leadsTo` says that the chunks settle it.
* Results.  `Session.HoldsLike` says that two sessions hold the same of their
  models, and `afresh_of_chronicle` is the result.
-/

namespace Intake

/-! ## Answers -/

namespace Office

variable {o o' : Office} {s s' : Session} {h : List Entry} {e : Entry}

/-- A session goes on without its model being asked again.  These chunks of
the reply are handled, these keys change the view, and it becomes this
session. -/
def LeadsTo (o : Office) (number : Nat) (cs : List Chunk) (keys : List Key) (s : Session) : Prop :=
  ∃ later o', Chronicle o later o' ∧ o'.bench.session = some s ∧ s.number = number ∧
    (∀ e ∈ later, ¬ e.asks number) ∧ Entry.chunks number later = cs ∧ Entry.looks later = keys

/-- The model is asked again, by a key or by a call, and what follows is these
chunks and these keys. -/
def RerunLeadsTo (o : Office) (number : Nat) (cs : List Chunk) (keys : List Key) (s : Session) :
    Prop :=
  ∃ e o', Move o e o' ∧ e.what.IsRerun ∧ o'.LeadsTo number cs keys s

/-- What follows a question is settled by the chunks that were handled and
the keys. -/
theorem reflects_of_leadsTo (hrecorded : o.Recorded h) (hreflecting : o.Reflecting h)
    (hmove : Move o e o') {number : Nat} (hasks : e.asks number) {cs : List Chunk}
    {keys : List Key} (hleads : o'.LeadsTo number cs keys s') :
    ∃ s, o'.bench.session = some s ∧ s.number = number ∧ s'.ground = s.ground ∧
      s'.Reflects o.bench.modelLabel (some cs) ∧ (s.looked keys).LooksLike s' := by
  obtain ⟨later, o₂, hrun, hs', hnumber', hquiet, rfl, rfl⟩ := hleads
  obtain ⟨s, hs, rfl, hstands⟩ := stands_of_asks hrecorded hmove hasks
  have hrecorded' := (recorded_move hrecorded hmove).1
  have hocr := ocr_ne_running hstands
  have hllm := Session.llm_ne_pending hstands
  have hcourse := course_of_chronicle hrecorded' hs hrun hs' hnumber'
  refine ⟨s, hs, rfl, hcourse.ground hocr, ?_,
    looksLike_of_chronicle hrecorded' hrun hs hs' hnumber' hocr hllm hquiet⟩
  have hreflects :=
    reflects_of_chronicle hrecorded' (reflects_move hrecorded hreflecting hmove) hrun s' hs'
  rw [(asksLike_of_chronicle hrun).modelLabel, (asksLike_move hmove).modelLabel, hnumber',
    List.append_assoc, List.singleton_append, Entry.latestReply_of_split h hasks hquiet]
    at hreflects
  exact hreflects

theorem exists_client (hrecorded : o.Recorded h) (hs : o.bench.session = some s)
    (hrerun : Workbench.canRerun s = true) : ∃ client, o.bench.clientInUse = some client := by
  have hmodel := (hrecorded.sound.session s hs).hasLlm
  simp only [Workbench.canRerun, Bool.and_eq_true] at hrerun
  rw [hrerun.1.2] at hmodel
  exact Option.isSome_iff_exists.1 hmodel.symm

/-- A rerun of a complete session with the cursor on its model's step asks. -/
theorem asks_of_canRerun (hrecorded : o.Recorded h) (hs : o.bench.session = some s)
    (hrerun : Workbench.canRerun s = true) (hmove : Move o e o') (hwhat : e.what.IsRerun) :
    e.asks s.number := by
  obtain ⟨client, hclient⟩ := exists_client hrecorded hs hrerun
  obtain ⟨now, -, hcommand⟩ := bench_of_rerun hmove hwhat
  rw [Workbench.rerun_of_canRerun hs hclient hrerun] at hcommand
  exact asks_of_command hcommand

/-- What follows a rerun is settled by the chunks that were handled and the
keys. -/
theorem reflects_of_rerun (hrecorded : o.Recorded h) (hreflecting : o.Reflecting h)
    (hs : o.bench.session = some s) (hrerun : Workbench.canRerun s = true) {cs : List Chunk}
    {keys : List Key} (hleads : o.RerunLeadsTo s.number cs keys s') :
    s'.ground = s.ground ∧ s'.Reflects o.bench.modelLabel (some cs) ∧
      ∃ now, ((s.modelReset.modelStarted now o.bench.modelLabel).looked keys).LooksLike s' := by
  obtain ⟨e, o', hmove, hwhat, hleads⟩ := hleads
  have hasks := asks_of_canRerun hrecorded hs hrerun hmove hwhat
  obtain ⟨now, hrestarted⟩ := restarted_of_rerun hmove hs hwhat hasks
  obtain ⟨s₁, hs₁, -, hground, hreflects, hlooks⟩ :=
    reflects_of_leadsTo hrecorded hreflecting hmove hasks hleads
  obtain rfl := Option.some.inj (hs₁.symm.trans hrestarted)
  exact ⟨hground, hreflects, now, hlooks⟩

end Office

/-! ## Results -/

/-- Two sessions hold the same of their models, and the results of both or of
neither may be saved. -/
structure Session.HoldsLike (s s' : Session) : Prop where
  hints : s'.hints = s.hints
  status : s'.llm.status = s.llm.status
  detail : s'.llm.detail = s.llm.detail
  metric : s'.llm.metric = s.llm.metric
  logs : s'.llm.logs = s.llm.logs
  received : s'.received = s.received
  hasError : s'.hasError = s.hasError
  done : s'.done = s.done
  canAccept : s'.canAccept = s.canAccept

theorem Session.holdsLike_of_plain {s s' : Session} (h : s'.plain = s.plain) :
    s.HoldsLike s' where
  hints := (congrArg Session.hints h :)
  status := (congrArg (·.llm.status) h :)
  detail := (congrArg (·.llm.detail) h :)
  metric := (congrArg (·.llm.metric) h :)
  logs := (congrArg (·.llm.logs) h :)
  received := (congrArg Session.received h :)
  hasError := (congrArg Session.hasError h :)
  done := (congrArg Session.done h :)
  canAccept := Session.canAccept_congr h

namespace Office

variable {o o' : Office} {s s' : Session} {h h' : List Entry}

/-- Two sessions with the same ground hold the same, when both models are
asked again and the same is heard of them. -/
theorem holdsLike_of_reruns (hrecorded : o.Recorded h) (hreflecting : o.Reflecting h)
    (hs : o.bench.session = some s) (hrerun : Workbench.canRerun s = true)
    (hrecorded' : o'.Recorded h') (hreflecting' : o'.Reflecting h')
    (hs' : o'.bench.session = some s') (hrerun' : Workbench.canRerun s' = true)
    (hmodel : o'.bench.modelLabel = o.bench.modelLabel) (hground : s'.ground = s.ground)
    {cs : List Chunk} {keys keys' : List Key} {x x' : Session}
    (hx : o.RerunLeadsTo s.number cs keys x) (hx' : o'.RerunLeadsTo s'.number cs keys' x') :
    x.HoldsLike x' := by
  obtain ⟨hkept, hreflects, -⟩ := reflects_of_rerun hrecorded hreflecting hs hrerun hx
  obtain ⟨hkept', hreflects', -⟩ := reflects_of_rerun hrecorded' hreflecting' hs' hrerun' hx'
  rw [hmodel] at hreflects'
  have hgrounds : x'.ground = x.ground := hkept'.trans (hground.trans hkept.symm)
  exact Session.holdsLike_of_plain (hreflects.plain_eq hreflects' hgrounds)

/-- With the same basis and the same keys, they have the same steps open. -/
theorem isExpanded_of_reruns (hrecorded : o.Recorded h) (hreflecting : o.Reflecting h)
    (hs : o.bench.session = some s) (hrerun : Workbench.canRerun s = true)
    (hrecorded' : o'.Recorded h') (hreflecting' : o'.Reflecting h')
    (hs' : o'.bench.session = some s') (hrerun' : Workbench.canRerun s' = true)
    (hbasis : s'.basis = s.basis) {cs cs' : List Chunk} {keys : List Key} {x x' : Session}
    (hx : o.RerunLeadsTo s.number cs keys x) (hx' : o'.RerunLeadsTo s'.number cs' keys x')
    (k : LayerKind) : x'.isExpanded k = x.isExpanded k := by
  obtain ⟨-, -, now, hlooks⟩ := reflects_of_rerun hrecorded hreflecting hs hrerun hx
  obtain ⟨-, -, now', hlooks'⟩ := reflects_of_rerun hrecorded' hreflecting' hs' hrerun' hx'
  have hrestarted := Session.looksLike_restarted hbasis now now' o.bench.modelLabel
    o'.bench.modelLabel
  exact (hlooks.symm.trans ((hrestarted.looked keys).trans hlooks')).isExpanded k

/-- The model of a session was asked here for the first time. -/
structure FirstAsks (start : Office) (h : List Entry) (o : Office) (number : Nat)
    (ask : Entry) (later : List Entry) (o₁ o₂ : Office) : Prop where
  before : ∃ earlier, h = earlier ++ ask :: later ∧ Chronicle start earlier o₁ ∧
    ∀ e ∈ earlier, ¬ e.asks number
  asked : Move o₁ ask o₂
  asks : ask.asks number
  since : Chronicle o₂ later o

/-- The model of a session whose model's step does not wait was asked for a
first time. -/
theorem exists_firstAsks {start : Office} (hstart : start.Recorded [])
    (hreflecting : start.Reflecting []) (hrun : Chronicle start h o)
    (hs : o.bench.session = some s) (hllm : s.llm.status ≠ .pending) :
    ∃ ask later o₁ o₂, FirstAsks start h o s.number ask later o₁ o₂ := by
  have hreflects := reflects_of_chronicle hstart hreflecting hrun s hs
  cases hreply : Entry.latestReply s.number h with
  | none =>
    rw [List.nil_append, hreply] at hreflects
    have hnothing := (hreflects.unasked rfl).1
    exact absurd (congrArg StepInfo.status hnothing :) hllm
  | some cs =>
    obtain ⟨earlier, ask, later, rfl, hask, hearlier⟩ := Entry.exists_first_ask hreply
    obtain ⟨o₁, o₂, hbefore, hmove, hafter⟩ := hrun.split
    exact ⟨ask, later, o₁, o₂, ⟨earlier, rfl, hbefore, hearlier⟩, hmove, hask, hafter⟩

theorem ne_pending_of_canRerun (hrecorded : o.Recorded h) (hs : o.bench.session = some s)
    (hrerun : Workbench.canRerun s = true) :
    s.ocr.status ≠ .running ∧ s.llm.status ≠ .pending := by
  simp only [Workbench.canRerun, Bool.and_eq_true] at hrerun
  obtain ⟨k?, hstands, -⟩ := (hrecorded.sound.session s hs).stands
  obtain rfl := Session.eq_none_of_done hstands hrerun.1.1
  have hstanding : s.Standing .lt .lt true := hstands
  refine ⟨ocr_ne_running hstanding, fun hpending => ?_⟩
  have hended := hstanding.llm
  rw [hrerun.1.2, hpending] at hended
  rcases hended with hended | hended
  · cases hended
  · cases hended

/-- The question of a rerun is the first one, at a workbench with the same
names for a prompt. -/
theorem command_rerun (hs : o.bench.session = some s) (hrerun : Workbench.canRerun s = true)
    {o₁ o₂ : Office} {ask : Entry} {earlier later : List Entry} (hrecorded₁ : o₁.Recorded earlier)
    (hask : Move o₁ ask o₂) (hasks : ask.asks s.number) (hsince : Chronicle o₂ later o)
    {w : Workbench} (hw : w.session = some s) (hclient : w.clientInUse = o.bench.clientInUse)
    (hnames : w.knownEntities.1 = o₁.bench.knownEntities.1) (now : Float) :
    (w.rerun now).command? = ask.command := by
  obtain ⟨client, messages, hcommand⟩ := exists_command_of_asks hasks
  obtain ⟨s₀, -, hquestions, -⟩ := exists_questions hrecorded₁ hask hcommand
  obtain ⟨now₀, hfirst⟩ := hquestions.session
  obtain ⟨s₁, hs₁, hn, hstands⟩ := stands_of_asks hrecorded₁ hask hasks
  obtain rfl := Option.some.inj (hs₁.symm.trans hfirst)
  have hcourse := course_of_chronicle (recorded_move hrecorded₁ hask).1 hs₁ hsince hs hn.symm
  have hsource : s.source = s₀.source :=
    Session.source_congr (hcourse.ground (ocr_ne_running hstands))
  have hasked : w.clientInUse = some client := by
    rw [hclient, (asksLike_of_chronicle hsince).clientInUse, (asksLike_move hask).clientInUse]
    exact hquestions.client
  rw [Workbench.rerun_of_canRerun hw hasked hrerun, hcommand, hquestions.messages, ← hnames,
    ← hsource]
  rfl

theorem reflecting_start (store : Option Store) (client : Option ChatClient) (settings : Settings)
    (capabilities : Capabilities) : (start store client settings capabilities).Reflecting [] := by
  intro s hs
  cases hs

section FirstAsks

variable {start o₁ o₂ : Office} {ask : Entry} {later : List Entry}

/-- A session after a rerun holds what it would hold had the same been heard
after the first question. -/
theorem FirstAsks.holdsLike (hfirst : FirstAsks start h o s.number ask later o₁ o₂)
    (hstart : start.Recorded []) (hreflecting : start.Reflecting []) (hrun : Chronicle start h o)
    (hs : o.bench.session = some s) (hrerun : Workbench.canRerun s = true) {cs : List Chunk}
    {keys keys' : List Key} {x y : Session} (hx : o.RerunLeadsTo s.number cs keys x)
    (hy : o₂.LeadsTo s.number cs keys' y) : y.HoldsLike x := by
  obtain ⟨earlier, -, hbefore, -⟩ := hfirst.before
  have hrecorded₁ := recorded_of_chronicle hstart hbefore
  obtain ⟨hground, hreflects, -⟩ := reflects_of_rerun (recorded_of_chronicle hstart hrun)
    (reflects_of_chronicle hstart hreflecting hrun) hs hrerun hx
  obtain ⟨s₁, hs₁, hnumber, hground₁, hreflects₁, -⟩ := reflects_of_leadsTo hrecorded₁
    (reflects_of_chronicle hstart hreflecting hbefore) hfirst.asked hfirst.asks hy
  obtain ⟨s₂, hs₂, -, hstands⟩ := stands_of_asks hrecorded₁ hfirst.asked hfirst.asks
  obtain rfl : s₁ = s₂ := Option.some.inj (hs₁.symm.trans hs₂)
  -- The pages are read before the model is asked, so the ground is the same ever since.
  have hcourse := course_of_chronicle (recorded_move hrecorded₁ hfirst.asked).1 hs₁ hfirst.since
    hs hnumber.symm
  have hgrounds : x.ground = y.ground := by
    rw [hground, hcourse.ground (ocr_ne_running hstands), hground₁]
  rw [(asksLike_of_chronicle hfirst.since).modelLabel, (asksLike_move hfirst.asked).modelLabel]
    at hreflects
  exact Session.holdsLike_of_plain (hreflects₁.plain_eq hreflects hgrounds)

/-- What else is heard after the first question makes no difference to the
basis of the session. -/
theorem FirstAsks.basis (hfirst : FirstAsks start h o s.number ask later o₁ o₂)
    (hstart : start.Recorded []) (hs : o.bench.session = some s) {later' : List Entry}
    (hrun' : Chronicle o₂ later' o') (hs' : o'.bench.session = some s')
    (hn : s'.number = s.number) (hlooks : Entry.looks later' = Entry.looks later) :
    s'.basis = s.basis := by
  obtain ⟨earlier, -, hbefore, -⟩ := hfirst.before
  have hrecorded₁ := recorded_of_chronicle hstart hbefore
  have hrecorded₂ := (recorded_move hrecorded₁ hfirst.asked).1
  obtain ⟨s₁, hs₁, hnumber, hstands⟩ := stands_of_asks hrecorded₁ hfirst.asked hfirst.asks
  have hocr := ocr_ne_running hstands
  have hllm := Session.llm_ne_pending hstands
  rw [basis_of_chronicle hrecorded₂ hfirst.since hs₁ hs hnumber.symm hocr hllm,
    basis_of_chronicle hrecorded₂ hrun' hs₁ hs' (hn.trans hnumber.symm) hocr hllm, hlooks]

end FirstAsks

/-- A rerun is a fresh start of the model's step.  Let a session be complete
with its cursor on that step, after any run of an office.  Its model was asked
for a first time, and a rerun asks the same, as long as the names for a prompt
are the same.  From then on the session holds, for the chunks it has heard,
what it would hold had it heard them after the first question.  What its model
has brought before makes no difference, neither to what it holds nor to which
steps are open; nor do reruns before the last one. -/
theorem afresh_of_chronicle {store : Option Store} {client : Option ChatClient}
    {settings : Settings} {capabilities : Capabilities}
    (hrun : Chronicle (.start store client settings capabilities) h o)
    (hs : o.bench.session = some s) (hrerun : Workbench.canRerun s = true) :
    ∃ ask later o₁ o₂,
      FirstAsks (.start store client settings capabilities) h o s.number ask later o₁ o₂ ∧
      (∀ now store', ({ o.bench with store := store' } : Workbench).knownEntities.1 =
          o₁.bench.knownEntities.1 →
        (({ o.bench with store := store' } : Workbench).rerun now).command? = ask.command) ∧
      (∀ cs keys keys' x y, o.RerunLeadsTo s.number cs keys x →
        o₂.LeadsTo s.number cs keys' y → y.HoldsLike x) ∧
      (∀ later' o' s', Chronicle o₂ later' o' → o'.bench.session = some s' →
        s'.number = s.number → Entry.looks later' = Entry.looks later → s'.basis = s.basis) ∧
      (∀ store' capabilities' h' o' s',
        Chronicle (.start store' client settings capabilities') h' o' →
        o'.bench.session = some s' → Workbench.canRerun s' = true → s'.basis = s.basis →
        ∀ cs keys x x', o.RerunLeadsTo s.number cs keys x →
          o'.RerunLeadsTo s'.number cs keys x' →
          x.HoldsLike x' ∧ ∀ k, x'.isExpanded k = x.isExpanded k) ∧
      ∀ again o' s', Chronicle o again o' → o'.bench.session = some s' →
        s'.number = s.number → Workbench.canRerun s' = true →
        ∀ cs keys x x', o.RerunLeadsTo s.number cs keys x →
          o'.RerunLeadsTo s.number cs keys x' →
          x.HoldsLike x' ∧ (Entry.looks again = [] → ∀ k, x'.isExpanded k = x.isExpanded k) := by
  have hstart := recorded_start store client settings capabilities
  have hbegins := reflecting_start store client settings capabilities
  have hrecorded := recorded_of_chronicle hstart hrun
  have hreflecting := reflects_of_chronicle hstart hbegins hrun
  obtain ⟨hocr, hllm⟩ := ne_pending_of_canRerun hrecorded hs hrerun
  obtain ⟨ask, later, o₁, o₂, hfirst⟩ := exists_firstAsks hstart hbegins hrun hs hllm
  obtain ⟨earlier, -, hbefore, -⟩ := hfirst.before
  refine ⟨ask, later, o₁, o₂, hfirst, fun now store' hnames => ?_,
    fun cs keys keys' x y hx hy => hfirst.holdsLike hstart hbegins hrun hs hrerun hx hy,
    fun later' o' s' hrun' hs' hn hlooks => hfirst.basis hstart hs hrun' hs' hn hlooks,
    fun store' capabilities' h' o' s' hrun' hs' hrerun' hbasis cs keys x x' hx hx' => ?_,
    fun again o' s' hrun' hs' hn hrerun' cs keys x x' hx hx' => ?_⟩
  · exact command_rerun hs hrerun (recorded_of_chronicle hstart hbefore) hfirst.asked hfirst.asks
      hfirst.since (by exact hs) (by rfl) hnames now
  · have hstart' := recorded_start store' client settings capabilities'
    have hrecorded' := recorded_of_chronicle hstart' hrun'
    have hreflecting' := reflects_of_chronicle hstart'
      (reflecting_start store' client settings capabilities') hrun'
    have hmodel : o'.bench.modelLabel = o.bench.modelLabel := by
      rw [(asksLike_of_chronicle hrun').modelLabel, (asksLike_of_chronicle hrun).modelLabel]
      rfl
    exact ⟨holdsLike_of_reruns hrecorded hreflecting hs hrerun hrecorded' hreflecting' hs'
        hrerun' hmodel (Session.ground_of_basis hbasis) hx hx',
      isExpanded_of_reruns hrecorded hreflecting hs hrerun hrecorded' hreflecting' hs' hrerun'
        hbasis hx hx'⟩
  · have hrecorded' := recorded_append hrecorded hrun'
    have hreflecting' := reflects_of_chronicle hrecorded hreflecting hrun'
    have hcourse := course_of_chronicle hrecorded hs hrun' hs' hn
    have hbasis := basis_of_chronicle hrecorded hrun' hs hs' hn hocr hllm
    rw [← hn] at hx'
    refine ⟨holdsLike_of_reruns hrecorded hreflecting hs hrerun hrecorded' hreflecting' hs'
      hrerun' (asksLike_of_chronicle hrun').modelLabel (hcourse.ground hocr) hx hx',
      fun hlooks => ?_⟩
    rw [hlooks] at hbasis
    exact isExpanded_of_reruns hrecorded hreflecting hs hrerun hrecorded' hreflecting' hs' hrerun'
      hbasis hx hx'

/-- In a workshop the oldest command of an office delivers this at once. -/
def Delivers (o : Office) (s : Workshop) (d : Delivery) : Prop :=
  ∃ task running queue, o.loop.running = task :: running ∧
    (o.carry 0 (Workshop.proceed task { s with bench := o.bench })).loop.queue = d :: queue

/-- What a model says does not ask it again. -/
theorem not_asks_of_handles (hrecorded : o.Recorded h) {e : Entry} (hmove : Move o e o')
    {d : Delivery} (hwhat : e.what = .handles d) (hlayer : d.layer? = some .llm) (number : Nat) :
    ¬ e.asks number := by
  intro hasks
  obtain ⟨s', hs', rfl, -⟩ := stands_of_asks hrecorded hmove hasks
  obtain ⟨s, hs, hchange⟩ := change_of_move_ne hrecorded.sound hmove
    (fun hopens => by cases hwhat.symm.trans hopens) hs'
  rw [hchange.number] at hasks
  rcases rerun_or_progress_of_asks hrecorded hmove hs' hchange hasks with
    (hrerun | hrerun) | ⟨-, p, hheard⟩
  · cases hwhat.symm.trans hrerun
  · cases hwhat.symm.trans hrerun
    cases hlayer
  · cases hwhat.symm.trans hheard
    cases hlayer

/-- What a model says is handled, and it is not asked again. -/
theorem chronicle_serve {start : Office} {earlier : List Entry} (hrecorded : o.Recorded h)
    (hrun : Chronicle start earlier o) {a : Workshop} {d : Delivery} (hdelivers : o.Delivers a d)
    (hlayer : d.layer? = some .llm) : ∃ e, e.what = .handles d ∧ (∀ number, ¬ e.asks number) ∧
      Chronicle start (earlier ++ [{ what := .carries }] ++ [e]) (o.serve a) := by
  obtain ⟨task, running, queue, hrunning, hqueue⟩ := hdelivers
  have htask : o.loop.running[0]? = some task := by rw [hrunning, List.getElem?_cons_zero]
  have hcarries : Move o { what := .carries }
      (o.carry 0 (Workshop.proceed task { a with bench := o.bench })) := .carries _ htask rfl
  have hserve : o.serve a =
      ((o.carry 0 (Workshop.proceed task { a with bench := o.bench })).without 0).after
        ((o.carry 0 (Workshop.proceed task { a with bench := o.bench })).bench.handle 0 d) := by
    rw [serve, hrunning]
    dsimp only
    rw [handleNext, hqueue]
  have hd : (o.carry 0 (Workshop.proceed task { a with bench := o.bench })).loop.queue[0]? =
      some d := by rw [hqueue, List.getElem?_cons_zero]
  have hhandles := Move.handles 0 hd
  rw [← hserve] at hhandles
  exact ⟨_, rfl, not_asks_of_handles (recorded_move hrecorded hcarries).1 hhandles rfl hlayer,
    (hrun.snoc hcarries).snoc hhandles⟩

/-- A reply in one piece. -/
theorem leadsTo_serve (hrecorded : o.Recorded h) {number stream : Nat} {c : Chunk}
    {a b : Workshop} (hopens : o.Delivers a (.replyOpened number stream))
    (hreplies : (o.serve a).Delivers b (.chunk number c))
    (hs : ((o.serve a).serve b).bench.session = some s) (hnumber : s.number = number) :
    o.LeadsTo number [c] [] s := by
  obtain ⟨e, hwhat, hquiet, hopened⟩ := chronicle_serve hrecorded .nil hopens rfl
  obtain ⟨e', hwhat', hquiet', hsaid⟩ :=
    chronicle_serve (recorded_append hrecorded hopened) hopened hreplies rfl
  have hcarries : ¬ Entry.asks number { what := .carries } := Bool.false_ne_true
  refine ⟨_, _, hsaid, hs, hnumber, ?_, ?_, ?_⟩
  · simp [hquiet, hquiet', hcarries]
  · have hheard : e.chunk? number = none := Entry.chunk?_of_handles hwhat
    have hheard' : e'.chunk? number = some c :=
      (Entry.chunk?_of_handles hwhat').trans (if_pos rfl)
    have hsilent : Entry.chunk? number { what := .carries } = none := rfl
    simp [Entry.chunks, hheard, hheard', hsilent]
  · simp [Entry.looks, Entry.look?, hwhat, hwhat']

/-- The office in which a model was asked about a note and has given no reply. -/
def unanswered : Office :=
  writingRoom.after noteGiven |>.serve { bench := writingRoom.bench } |>.strike .down

/-- An office after the model was asked again. -/
def rerunOnce (o : Office) : Office := o.after (o.bench.rerun 0)

/-- The office in which the model was asked a second time and has given no
reply again. -/
def unansweredTwice : Office := unanswered.rerunOnce.serve { bench := writingRoom.bench }

/-- A reply without anything in it. -/
def blank : Chunk := { text := "\x7b\x7d", done := true }

/-- The session after the model was asked again and has replied. -/
def answered (o : Office) : Option Session :=
  (o.rerunOnce.serve answering |>.serve (saying blank)).bench.session

theorem rerunLeadsTo_answered (hrecorded : o.Recorded h) {number stream : Nat}
    (hopens : o.rerunOnce.Delivers answering (.replyOpened number stream))
    (hreplies : (o.rerunOnce.serve answering).Delivers (saying blank) (.chunk number blank))
    (hs : o.answered = some s) (hnumber : s.number = number) :
    o.RerunLeadsTo number [blank] [] s := by
  have hmove : Move o (entry .reruns (o.bench.rerun 0)) o.rerunOnce := .reruns 0
  exact ⟨_, _, hmove, Or.inl rfl,
    leadsTo_serve (recorded_move hrecorded hmove).1 hopens hreplies hs hnumber⟩

theorem afresh_unanswered : ∃ s s' x x',
    unanswered.bench.session = some s ∧ Workbench.canRerun s = true ∧
    unansweredTwice.bench.session = some s' ∧ Workbench.canRerun s' = true ∧
    unanswered.answered = some x ∧ unansweredTwice.answered = some x' ∧
    x.llm.status = .done ∧ x.HoldsLike x' ∧ ∀ k, x'.isExpanded k = x.isExpanded k := by
  have hopened : Chronicle writingRoom _ (writingRoom.after noteGiven) :=
    Chronicle.nil.snoc (.opens _ (.given 1 "a.txt" [120] "text/plain" "x") rfl)
  obtain ⟨h, hrun⟩ : ∃ h, Chronicle writingRoom h unanswered :=
    exists_chronicle_strike (exists_chronicle_serve ⟨_, hopened⟩ _) .down
  have hbefore : unanswered.bench.session.map (fun s => (s.number, Workbench.canRerun s)) =
      some (1, true) := by decide +kernel
  have hbetween : unansweredTwice.bench.session.map
      (fun s => (s.number, Workbench.canRerun s)) = some (1, true) := by decide +kernel
  have hafter : unanswered.answered.map (fun s => (s.number, s.llm.status)) =
      some (1, .done) := by decide +kernel
  have hafter' : unansweredTwice.answered.map (·.number) = some 1 := by decide +kernel
  obtain ⟨s, hs, hstate⟩ := Option.map_eq_some_iff.1 hbefore
  obtain ⟨s', hs', hstate'⟩ := Option.map_eq_some_iff.1 hbetween
  obtain ⟨x, hx, hreplied⟩ := Option.map_eq_some_iff.1 hafter
  obtain ⟨x', hx', hnumber'⟩ := Option.map_eq_some_iff.1 hafter'
  simp only [Prod.mk.injEq] at hstate hstate' hreplied
  have hrecorded := recorded_of_chronicle (recorded_start _ _ _ _) hrun
  have hreruns : Chronicle unanswered [entry .reruns (unanswered.bench.rerun 0)]
      unanswered.rerunOnce := Chronicle.nil.snoc (.reruns 0)
  have hrefused : unanswered.rerunOnce.Delivers { bench := writingRoom.bench }
      (.chunk 1 (.broken (.runtime "no scripted reply"))) := ⟨_, _, _, rfl, rfl⟩
  obtain ⟨e, hwhat, -, hagain⟩ :=
    chronicle_serve (recorded_append hrecorded hreruns) hreruns hrefused rfl
  have hrecorded' := recorded_append hrecorded hagain
  have hleads : unanswered.RerunLeadsTo 1 [blank] [] x :=
    rerunLeadsTo_answered hrecorded ⟨_, _, _, rfl, rfl⟩ ⟨_, _, _, rfl, rfl⟩ hx hreplied.1
  have hleads' : unansweredTwice.RerunLeadsTo 1 [blank] [] x' :=
    rerunLeadsTo_answered hrecorded' ⟨_, _, _, rfl, rfl⟩ ⟨_, _, _, rfl, rfl⟩ hx' hnumber'
  rw [← hstate.1] at hleads hleads'
  obtain ⟨_, _, _, _, -, -, -, -, -, hsuccessive⟩ := afresh_of_chronicle hrun hs hstate.2
  obtain ⟨hholds, hlooks⟩ := hsuccessive _ _ s' hagain hs' (hstate'.1.trans hstate.1.symm)
    hstate'.2 _ _ x x' hleads hleads'
  refine ⟨s, s', x, x', hs, hstate.2, hs', hstate'.2, hx, hx', hreplied.2, hholds, hlooks ?_⟩
  simp [Entry.looks, Entry.look?, entry, hwhat]

end Office
end Intake
