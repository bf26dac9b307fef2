import Intake.Proofs.Layer.Protocol

/-!
# Watches

A worker together with its site, its cancellation and the one consumer of its
events.  The consumer reads whenever it likes, the cancellation fires at any
instant, and what was read keeps to the protocol all the same.

There are five groups.

* Watches.  `Watch.Step` is all that can happen next, `Watch.Obeys` the
  invariant.
* What becomes of the worker.  `obeys_carried` carries a worker on.
* Steps.  `Obeys.step` says that every step preserves the invariant.
* Cancellation.  `Obeys.step_of_fired` says what a step can still add once the
  cancellation has fired.
* The end.  A worker comes to its end and its stream can be read to the end.
  `protocol_forDocument` is the result.
-/

namespace Intake

/-! ## Watches -/

/-- A worker, the site it works at, its cancellation and what its one consumer
has read. -/
structure Watch where
  worker : Worker
  site : Site
  fired : Bool
  reads : List ProgressRead := []

namespace Watch

/-- The event that a read gave. -/
def event? : ProgressRead → Option Progress
  | .event p => some p
  | .closed => none
  | .failed _ => none
  | .waiting => none

/-- Whether a read came to something. -/
def answers : ProgressRead → Bool
  | .waiting => false
  | .event _ => true
  | .closed => true
  | .failed _ => true

/-- The events that were read. -/
def read (w : Watch) : List Progress := w.reads.filterMap event?

/-- The events that the worker has put out. -/
def told (w : Watch) : List Progress := w.read ++ w.worker.events.arrived

/-- A worker has been carried on, and this is what has become of it. -/
def carried (w : Watch) (p : Worker × Site) : Watch := { w with worker := p.1, site := p.2 }

/-- The watch over a worker that begins with a plan. -/
def begin (owner : Nat) (now : Float) (fired waits : Bool) (plan : Plan) (t : Site) : Watch :=
  Watch.carried ⟨{ owner := owner, stage := .over, since := now }, t, fired, []⟩
    (Worker.start owner now fired waits plan t)

/-- The consumer reads. -/
def readNext (w : Watch) : Watch :=
  let (answer, events) := w.worker.events.next
  { w with worker := { w.worker with events := events }, reads := w.reads ++ [answer] }

/-- What can happen next.  The cancellation fires at any instant, the consumer
reads at any time, and a program that is waited for ends by itself also when
the cancellation fires at the same time. -/
inductive Step (waits : Bool) : Watch → Watch → Prop where
  | fires (w : Watch) : Step waits w { w with fired := true }
  | ends (w : Watch) (now : Float) {r : Request} {script : Script} {call : Nat}
      {next : Except Fault Yield → Plan} (h : w.worker.stage = .waits r script call next) :
      Step waits w
        (w.carried (w.worker.carryOn now w.fired waits (next (script.result r)) w.site))
  | stops (w : Watch) (now : Float) (h : w.fired = true) :
      Step waits w (w.carried (w.worker.halt now w.site))
  | reads (w : Watch) (h : answers w.worker.events.next.1 = true) : Step waits w w.readNext

/-- All that can come of a watch. -/
def Reaches (waits : Bool) : Watch → Watch → Prop := Relation.ReflTransGen (Step waits)

/-- What holds of a worker at any time: it keeps to the protocol, its stream
has ended when it has, and the stream reads as closed behind all events. -/
structure Obeys (image : Bool) (w : Watch) : Prop where
  broken : w.worker.events.broken = none
  ended : w.worker.events.ended = true ↔ w.worker.stage = .over
  closed : w.worker.events.closed = true →
    w.worker.events.ended = true ∧ w.worker.events.arrived = []
  reads : ∃ m, w.reads = w.read.map .event ++ List.replicate m .closed ∧
    (0 < m → w.worker.events.closed = true)
  stage : w.worker.stage.Obeys image w.told

variable {image waits : Bool} {w v : Watch}

/-! ## What becomes of the worker -/

theorem arrived_take (worker : Worker) (now : Float) (events : List Progress) (stage : Stage)
    (h : worker.events.ended = false) :
    (worker.take now events stage).events.arrived = worker.events.arrived ++ events := by
  simp only [Worker.take, Worker.foldl_put h]
  cases stage with
  | «over» => rfl
  | waits r script call next => rfl

theorem told_carried (now : Float) (fired waits : Bool) (plan : Plan) (t : Site)
    (h : w.worker.events.ended = false) :
    (w.carried (w.worker.carryOn now fired waits plan t)).told =
      w.told ++ (plan.advance fired waits t).1.1 := by
  show w.read ++ (w.worker.take now _ _).events.arrived = _
  rw [arrived_take _ _ _ _ h, ← List.append_assoc]
  rfl

/-- A worker that is not over keeps to the protocol when it is carried on with
a plan that does. -/
theorem obeys_carried (hbroken : w.worker.events.broken = none)
    (hended : w.worker.events.ended = false) (hclosed : w.worker.events.closed = false)
    (hreads : w.reads = w.read.map .event) (htold : Progress.Earlier image w.told) {plan : Plan}
    (hplan : plan.Obeys image w.told) (now : Float) (fired waits : Bool) (t : Site) :
    (w.carried (w.worker.carryOn now fired waits plan t)).Obeys image := by
  have hstage := hplan.advance htold fired waits t
  rw [← told_carried now fired waits plan t hended] at hstage
  have hevents : (w.worker.take now (plan.advance fired waits t).1.1
      (plan.advance fired waits t).1.2).events.broken = none ∧
    (w.worker.take now (plan.advance fired waits t).1.1
      (plan.advance fired waits t).1.2).events.closed = false ∧
    ((w.worker.take now (plan.advance fired waits t).1.1
      (plan.advance fired waits t).1.2).events.ended = true ↔
        (plan.advance fired waits t).1.2 = .over) := by
    simp only [Worker.take, Worker.foldl_put hended]
    cases (plan.advance fired waits t).1.2 with
    | «over» => exact ⟨hbroken, hclosed, by simp [ProgressStream.finish]⟩
    | waits r script call next => exact ⟨hbroken, hclosed, by simp [hended]⟩
  refine ⟨hevents.1, hevents.2.2, ?_,
    ⟨0, ?_, fun hpos => absurd hpos (Nat.lt_irrefl 0)⟩, hstage⟩
  · intro h
    exact absurd (hevents.2.1.symm.trans h) Bool.false_ne_true
  · rw [List.replicate_zero, List.append_nil]
    exact hreads

theorem obeys_begin {plan : Plan} (h : plan.Obeys image []) (owner : Nat) (now : Float)
    (fired waits : Bool) (t : Site) : (begin owner now fired waits plan t).Obeys image :=
  obeys_carried (w := ⟨{ owner := owner, stage := .over, since := now }, t, fired, []⟩)
    rfl rfl rfl rfl (.silent image) h now fired waits t

/-! ## Steps -/

theorem Obeys.not_ended (h : w.Obeys image) {r : Request} {script : Script} {call : Nat}
    {next : Except Fault Yield → Plan} (hstage : w.worker.stage = .waits r script call next) :
    w.worker.events.ended = false := by
  rw [← Bool.not_eq_true, h.ended, hstage]
  exact Stage.noConfusion

/-- A worker that waits for a program is carried on with what is left of its
plan. -/
theorem Obeys.carryOn (h : w.Obeys image) {r : Request} {script : Script} {call : Nat}
    {next : Except Fault Yield → Plan} (hstage : w.worker.stage = .waits r script call next)
    (ended : Except Fault Yield) (now : Float) (fired waits : Bool) (t : Site) :
    (w.carried (w.worker.carryOn now fired waits (next ended) t)).Obeys image := by
  have hended := h.not_ended hstage
  have hclosed : w.worker.events.closed = false := by
    rw [← Bool.not_eq_true]
    intro hclosed
    exact absurd (hended.symm.trans (h.closed hclosed).1) Bool.false_ne_true
  obtain ⟨m, hreads, hm⟩ := h.reads
  have hzero : m = 0 := by
    by_contra hne
    exact absurd (hclosed.symm.trans (hm (Nat.pos_of_ne_zero hne))) Bool.false_ne_true
  rw [hzero, List.replicate_zero, List.append_nil] at hreads
  have hobeys := h.stage
  rw [hstage] at hobeys
  exact obeys_carried h.broken hended hclosed hreads hobeys.1 (hobeys.2 ended) now fired waits t

/-- A read moves the next event from the stream to what was read, or it says
that the stream is closed. -/
theorem readNext_cases (h : w.Obeys image) (hanswer : answers w.worker.events.next.1 = true) :
    (∃ p rest, w.worker.events.arrived = p :: rest ∧ w.worker.events.closed = false ∧
        w.readNext = { w with
          worker := { w.worker with events := { w.worker.events with arrived := rest } },
          reads := w.reads ++ [.event p] }) ∨
      (w.worker.events.ended = true ∧ w.worker.events.arrived = [] ∧
        w.readNext = { w with
          worker := { w.worker with events := { w.worker.events with closed := true } },
          reads := w.reads ++ [.closed] }) := by
  have hbroken := h.broken
  have hclosed := h.closed
  rw [readNext]
  generalize w.worker.events = stream at hanswer hbroken hclosed ⊢
  obtain ⟨arrived, ended, closed, broken⟩ := stream
  subst hbroken
  cases closed with
  | true => exact Or.inr ⟨(hclosed rfl).1, (hclosed rfl).2, rfl⟩
  | false =>
    cases arrived with
    | cons p rest => exact Or.inl ⟨p, rest, rfl, rfl, rfl⟩
    | nil =>
      cases ended with
      | true => exact Or.inr ⟨rfl, rfl, rfl⟩
      | false => exact absurd hanswer Bool.false_ne_true

/-- A stream that has ended answers every read. -/
theorem Obeys.answers_next (h : w.Obeys image) (hended : w.worker.events.ended = true) :
    answers w.worker.events.next.1 = true := by
  rw [ProgressStream.next, h.broken, hended]
  dsimp only
  split
  · rfl
  · split
    · rfl
    · rfl

theorem told_readNext (h : w.Obeys image) (hanswer : answers w.worker.events.next.1 = true) :
    w.readNext.told = w.told := by
  rcases readNext_cases h hanswer with ⟨p, rest, harrived, -, heq⟩ | ⟨-, -, heq⟩
  · rw [heq]
    simp [told, read, harrived, event?]
  · rw [heq]
    simp [told, read, event?]

theorem Obeys.readNext (h : w.Obeys image) (hanswer : answers w.worker.events.next.1 = true) :
    w.readNext.Obeys image := by
  have hcases := readNext_cases h hanswer
  have hstage : w.worker.stage.Obeys image w.readNext.told := by
    rw [told_readNext h hanswer]
    exact h.stage
  obtain ⟨m, hreads, hm⟩ := h.reads
  generalize w.readNext = v at hcases hstage ⊢
  rcases hcases with ⟨p, rest, harrived, hopen, rfl⟩ | ⟨hended, harrived, rfl⟩
  · have hzero : m = 0 := by
      by_contra hne
      exact absurd (hopen.symm.trans (hm (Nat.pos_of_ne_zero hne))) Bool.false_ne_true
    rw [hzero, List.replicate_zero, List.append_nil] at hreads
    refine ⟨h.broken, h.ended, ?_,
      ⟨0, ?_, fun hpos => absurd hpos (Nat.lt_irrefl 0)⟩, hstage⟩
    · intro hclosed
      exact absurd (hopen.symm.trans hclosed) Bool.false_ne_true
    · show w.reads ++ [ProgressRead.event p] =
        ((w.reads ++ [ProgressRead.event p]).filterMap event?).map ProgressRead.event ++
          List.replicate 0 .closed
      rw [List.filterMap_append, List.map_append, List.replicate_zero, List.append_nil]
      exact congrArg (· ++ [ProgressRead.event p]) hreads
  · refine ⟨h.broken, h.ended, fun _ => ⟨hended, harrived⟩, ⟨m + 1, ?_, fun _ => rfl⟩, hstage⟩
    show w.reads ++ [ProgressRead.closed] =
      ((w.reads ++ [ProgressRead.closed]).filterMap event?).map ProgressRead.event ++
        List.replicate (m + 1) .closed
    rw [List.filterMap_append, List.map_append, List.replicate_succ', List.append_assoc]
    nth_rewrite 1 [hreads]
    rw [List.append_assoc]
    rfl

theorem Obeys.step (h : w.Obeys image) (hstep : Step waits w v) : v.Obeys image := by
  cases hstep with
  | fires => exact ⟨h.broken, h.ended, h.closed, h.reads, h.stage⟩
  | ends now hstage => exact h.carryOn hstage _ now _ _ _
  | stops now hfired =>
    rw [Worker.halt]
    match hstage : w.worker.stage with
    | .over => exact h
    | .waits r script call next => exact h.carryOn hstage _ now true false _
  | reads hanswer => exact h.readNext hanswer

theorem Obeys.reaches (h : w.Obeys image) (hreaches : Reaches waits w v) : v.Obeys image := by
  induction hreaches with
  | refl => exact h
  | tail _ hstep ih => exact ih.step hstep

/-! ## Cancellation -/

/-- What a step adds once the cancellation has fired: no program, and no event
but the last one. -/
theorem Obeys.step_of_fired (h : w.Obeys image) (hfired : w.fired = true)
    (hstep : Step waits w v) :
    v.fired = true ∧ v.site.calls.length = w.site.calls.length ∧
      ∃ more, v.told = w.told ++ more ∧ ∀ p ∈ more, p.done = true := by
  have hcarried : ∀ {r script call next} (_ : w.worker.stage = .waits r script call next)
      (ended : Except Fault Yield) (now : Float) (waits : Bool) (t : Site),
      ∃ more, (w.carried (w.worker.carryOn now true waits (next ended) t)).told = w.told ++ more ∧
        ∀ p ∈ more, p.done = true := by
    intro r script call next hstage ended now waits t
    have hcarried := h.carryOn hstage ended now true waits t
    obtain ⟨hover, ⟨last, hlast⟩, -⟩ := Plan.advance_of_fired (next ended) waits t
    have htold := told_carried now true waits (next ended) t (h.not_ended hstage)
    have hcomplete : Progress.Complete image (w.told ++ [last]) := by
      have hobeys := hcarried.stage
      rw [htold, hlast] at hobeys
      rwa [show (w.carried (w.worker.carryOn now true waits (next ended) t)).worker.stage = .over
        from hover] at hobeys
    refine ⟨[last], by rw [htold, hlast], ?_⟩
    intro p hp
    rw [List.mem_singleton.1 hp]
    exact hcomplete.done_of_append
  cases hstep with
  | fires => exact ⟨rfl, rfl, [], (List.append_nil _).symm, nofun⟩
  | @ends now r script call next hstage =>
    rw [hfired]
    have hcalls := (Plan.advance_of_fired (next (script.result r)) waits w.site).2.2
    exact ⟨hfired, congrArg List.length hcalls, hcarried hstage _ now waits _⟩
  | stops now =>
    rw [Worker.halt]
    match hstage : w.worker.stage with
    | .over => exact ⟨hfired, rfl, [], (List.append_nil _).symm, nofun⟩
    | .waits r script call next =>
      have hcalls := (Plan.advance_of_fired (next (.error .cancelled)) false
        (w.site.stopCall call)).2.2
      have hlength : (w.site.stopCall call).calls.length = w.site.calls.length :=
        List.length_modify _ _ _
      exact ⟨hfired, (congrArg List.length hcalls).trans hlength, hcarried hstage _ now false _⟩
  | reads hanswer =>
    refine ⟨hfired, rfl, [], ?_, nofun⟩
    rw [List.append_nil]
    exact told_readNext h hanswer

theorem Obeys.reaches_of_fired (h : w.Obeys image) (hfired : w.fired = true)
    (hreaches : Reaches waits w v) :
    v.fired = true ∧ v.site.calls.length = w.site.calls.length ∧
      ∃ more, v.told = w.told ++ more ∧ ∀ p ∈ more, p.done = true := by
  induction hreaches with
  | refl => exact ⟨hfired, rfl, [], (List.append_nil _).symm, nofun⟩
  | @tail u v hu hstep ih =>
    obtain ⟨hu', hcalls, more, htold, hmore⟩ := ih
    obtain ⟨hv, hcalls', more', htold', hmore'⟩ := (h.reaches hu).step_of_fired hu' hstep
    refine ⟨hv, hcalls'.trans hcalls, more ++ more', ?_, ?_⟩
    · rw [htold', htold, List.append_assoc]
    · intro p hp
      exact (List.mem_append.1 hp).elim (hmore p) (hmore' p)

/-! ## The end -/

/-- A worker comes to the end of its plan. -/
theorem exists_over (waits : Bool) (w : Watch) :
    ∃ v, Reaches waits w v ∧ v.worker.stage = .over := by
  induction hstage : w.worker.stage using Stage.wellFounded_behind.induction generalizing w with
  | _ stage ih =>
    cases stage with
    | «over» => exact ⟨w, .refl, hstage⟩
    | waits r script call next =>
      have hstep : Step waits w _ := .ends w 0 hstage
      obtain ⟨v, hreaches, hover⟩ := ih _ ⟨r, script, call, next, rfl, script.result r, w.fired,
        waits, w.site, rfl⟩
        (w.carried (w.worker.carryOn 0 w.fired waits (next (script.result r)) w.site)) rfl
      exact ⟨v, .head hstep hreaches, hover⟩

/-- The consumer of a worker that has come to its end can read all events and
the end of the stream. -/
theorem Obeys.exists_closed (h : w.Obeys image) (hover : w.worker.stage = .over) :
    ∃ v, Reaches waits w v ∧ v.worker.events.closed = true := by
  have hended := h.ended.2 hover
  by_cases hclosed : w.worker.events.closed = true
  · exact ⟨w, .refl, hclosed⟩
  · induction harrived : w.worker.events.arrived generalizing w with
    | nil =>
      have hanswer := h.answers_next hended
      rcases readNext_cases h hanswer with ⟨p, rest, hcons, -⟩ | ⟨-, -, hnext⟩
      · exact absurd (harrived.symm.trans hcons) nofun
      · exact ⟨_, .single (.reads w hanswer), by rw [hnext]⟩
    | cons p rest ih =>
      have hanswer := h.answers_next hended
      have hread := h.readNext hanswer
      have hstep : Step waits w w.readNext := .reads w hanswer
      rcases readNext_cases h hanswer with ⟨q, later, hcons, -, hnext⟩ | ⟨-, hnil, -⟩
      · rw [hnext] at hread hstep
        obtain ⟨-, rfl⟩ := List.cons.inj (harrived.symm.trans hcons)
        obtain ⟨v, hreaches, hv⟩ := ih hread hover hended hclosed rfl
        exact ⟨v, .head hstep hreaches, hv⟩
      · exact absurd (harrived.symm.trans hnil) nofun

/-- What was read keeps to the protocol at any time.  Behind the last event
every read says that the stream is closed. -/
theorem Obeys.shape (h : w.Obeys image) :
    ∃ m, w.reads = w.read.map .event ++ List.replicate m .closed ∧
      (m = 0 ∧ Progress.Earlier image w.read ∨ Progress.Complete image w.read) := by
  obtain ⟨m, hreads, hm⟩ := h.reads
  refine ⟨m, hreads, ?_⟩
  have hstage := h.stage
  cases hover : w.worker.stage with
  | «over» =>
    rw [hover] at hstage
    rcases Progress.Complete.of_append hstage with ⟨-, hread⟩ | hread
    · exact Or.inr hread
    · rcases Nat.eq_zero_or_pos m with hzero | hpos
      · exact Or.inl ⟨hzero, hread⟩
      · have hall : w.told = w.read := by
          rw [told, (h.closed (hm hpos)).2, List.append_nil]
        exact Or.inr (hall ▸ hstage)
  | waits r script call next =>
    rw [hover] at hstage
    refine Or.inl ⟨?_, hstage.1.of_append⟩
    by_contra hne
    have hended := (h.closed (hm (Nat.pos_of_ne_zero hne))).1
    exact absurd (hover.symm.trans (h.ended.1 hended)) Stage.noConfusion

end Watch

/-- The events of a reading with progress have a fixed shape, whatever the
programs do, whenever the cancellation fires and whenever the consumer reads.
There is one last event and every read behind it says that the stream is
closed.  Once the cancellation has fired, no program is started and no event
is put out but the last one.  The worker comes to its end. -/
theorem protocol_forDocument (folder : String) (data : Text.Utf8.Bytes) (mime : String)
    (cap : Int) :
    (∀ t : Site, Progress.Complete (Mime.isImage mime)
          ((Plan.forDocument folder data mime cap).complete t).1 ∧
        (t.fired = true →
          (∃ last, ((Plan.forDocument folder data mime cap).complete t).1 = [last]) ∧
            ((Plan.forDocument folder data mime cap).complete t).2.calls = t.calls)) ∧
      ∀ (owner : Nat) (now : Float) (fired waits : Bool) (t : Site) (w : Watch),
        Watch.Reaches waits
            (.begin owner now fired waits (Plan.forDocument folder data mime cap) t) w →
          (∃ m, w.reads = w.read.map .event ++ List.replicate m .closed ∧
              (m = 0 ∧ Progress.Earlier (Mime.isImage mime) w.read ∨
                Progress.Complete (Mime.isImage mime) w.read)) ∧
            (w.worker.stage = .over → Progress.Complete (Mime.isImage mime) w.told ∧
              ∃ last, w.told.filter Progress.done = [last] ∧ w.told.getLast? = some last) ∧
            (w.fired = true → ∀ v, Watch.Reaches waits w v →
              v.site.calls.length = w.site.calls.length ∧
                ∃ more, v.told = w.told ++ more ∧ ∀ p ∈ more, p.done = true) ∧
            ∃ v, Watch.Reaches waits w v ∧ v.worker.events.closed = true ∧
              Progress.Complete (Mime.isImage mime) v.read := by
  have hplan := Plan.obeys_forDocument folder data mime cap
  refine ⟨fun t => ⟨hplan.complete (.silent _) t, Plan.complete_of_fired _⟩, ?_⟩
  intro owner now fired waits t w h
  have hobeys := (Watch.obeys_begin hplan owner now fired waits t).reaches h
  refine ⟨hobeys.shape, ?_, ?_, ?_⟩
  · intro hover
    have hcomplete := hobeys.stage
    rw [hover] at hcomplete
    exact ⟨hcomplete, Progress.Complete.filter_done hcomplete⟩
  · intro hfired v hv
    exact (hobeys.reaches_of_fired hfired hv).2
  · obtain ⟨u, hu, hover⟩ := Watch.exists_over waits w
    have hread : ∃ v, Watch.Reaches waits u v ∧ v.worker.events.closed = true :=
      (hobeys.reaches hu).exists_closed hover
    obtain ⟨v, hv, hclosed⟩ := hread
    have hlast := (hobeys.reaches hu).reaches hv
    have hall : v.told = v.read := by
      rw [Watch.told, (hlast.closed hclosed).2, List.append_nil]
    have hcomplete := hlast.stage
    rw [hlast.ended.1 (hlast.closed hclosed).1, hall] at hcomplete
    exact ⟨v, hu.trans hv, hclosed, hcomplete⟩

/-- An image is read, the cancellation fires while its program runs, and the
consumer reads twice behind the last event. -/
def Watch.picture : Watch :=
  let w := Watch.begin 1 0 false true (Plan.forDocument "" [37] "image/png" 0)
    { signal := some false }
  let w := { w.readNext with fired := true }
  (w.carried (w.worker.halt 0 w.site)).readNext.readNext.readNext

theorem protocol_picture :
    Watch.picture.reads.length = 4 ∧ Watch.picture.read.map Progress.done = [false, true] ∧
      ∃ m, Watch.picture.reads =
          Watch.picture.read.map .event ++ List.replicate m .closed ∧
        (m = 0 ∧ Progress.Earlier (Mime.isImage "image/png") Watch.picture.read ∨
          Progress.Complete (Mime.isImage "image/png") Watch.picture.read) := by
  have hreaches : Watch.Reaches true
      (.begin 1 0 false true (Plan.forDocument "" [37] "image/png" 0) { signal := some false })
      .picture := by
    refine .tail (.tail (.tail (.tail (.tail (.tail .refl (.reads _ ?_)) (.fires _))
      (.stops _ 0 rfl)) (.reads _ ?_)) (.reads _ ?_)) (.reads _ ?_)
    · decide +kernel
    · decide +kernel
    · decide +kernel
    · decide +kernel
  refine ⟨by decide +kernel, by decide +kernel, ?_⟩
  exact ((protocol_forDocument "" [37] "image/png" 0).2 1 0 false true _ _ hreaches).1

end Intake
