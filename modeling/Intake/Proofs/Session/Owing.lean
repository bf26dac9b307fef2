import Intake.Proofs.Session.Briefing
import Intake.Proofs.Session.Premises

/-!
# What a workshop owes a session

While the pages of a session are read there is one task that brings what they
come to: the command that starts the worker, the one that waits for its next
event, or an event that was not handled yet.

There are four groups.

* Debts.  `Workshop.Awaits` and `Workshop.Owes` say that the worker is still to
  be started, and that it is at work; `Workshop.Brings` says what each task
  brings.
* Workers.  A worker that is over is left alone.
* The background.  `owes_stride`, `owes_pass` and `owes_settle` say that what
  goes on there keeps the debt.
* Commands.  `brings_proceed` says that a task that is carried on is left with
  what it brings.
-/

namespace Intake

open Text

/-! ## Debts -/

theorem Site.Rests.worksAlike {s t : Site} (h : s.Rests t) : s.WorksAlike t :=
  ⟨⟨h.scratch, fun program _ => by rw [h.scripts], h.signal, h.abandoned⟩, by rw [h.calls]⟩

namespace Workshop

/-- The pages of a session are still to be read.  Every worker there is has
ended, a new one can be started, and at an orderly site where the same is to
happen the pages come to the outcome. -/
structure Awaits (s : Workshop) (x : Session) (outcome : Except Fault Page) : Prop where
  ended : ∀ v ∈ s.workers, v.stage = .over
  starts : s.startFault = none
  hasPages : Mime.isPdf x.mime = true ∨ Mime.isImage x.mime = true
  orderly : s.site.Orderly
  outcome : ∃ t : Site, t.Orderly ∧ t.scripts = s.site.scripts ∧
    (PageReading.read x.data x.mime x.maxPages t).1 = outcome

/-- The worker that was started last is at work for a session and owes it an
outcome. -/
def Owes (s : Workshop) (x : Session) (outcome : Except Fault Page) : Prop :=
  ∃ earlier w, s.workers = earlier ++ [w] ∧ (∀ v ∈ earlier, v.stage = .over) ∧
    x.progress = some earlier.length ∧ w.owner = x.number ∧ w.Owes outcome s.site

/-- A task brings a session what its pages come to. -/
inductive Brings (s : Workshop) (x : Session) (outcome : Except Fault Page) : Task → Prop where
  | begins (h : s.Awaits x outcome) :
      Brings s x outcome (.fresh (.readPages x.number x.data x.mime x.maxPages))
  | goesOn (h : s.Owes x outcome) :
      Brings s x outcome (.fresh (.awaitProgress x.number x.progress))
  | waits (h : s.Owes x outcome) :
      Brings s x outcome (.waiting (.awaitProgress x.number x.progress))
  | tells {p : Progress} (h : s.Owes x outcome) (hdone : p.done = false) (hfault : p.fault = none) :
      Brings s x outcome (.ended (some (.progress x.number p)))
  | ends {p : Progress} (hdone : p.done = true) (hcarries : p.Carries outcome) :
      Brings s x outcome (.ended (some (.progress x.number p)))

variable {s s' : Workshop} {x x' : Session} {outcome : Except Fault Page} {task : Task}

/-- What keeps both kinds of debt keeps what a task brings. -/
theorem Brings.imp (h : s.Brings x outcome task) (hawaits : s.Awaits x outcome → s'.Awaits x outcome)
    (howes : s.Owes x outcome → s'.Owes x outcome) : s'.Brings x outcome task := by
  cases h with
  | begins h => exact .begins (hawaits h)
  | goesOn h => exact .goesOn (howes h)
  | waits h => exact .waits (howes h)
  | tells h hdone hfault => exact .tells (howes h) hdone hfault
  | ends hdone hcarries => exact .ends hdone hcarries

theorem Owes.of_readsLike (h : s.Owes x outcome) (hx : x.ReadsLike x') : s.Owes x' outcome := by
  obtain ⟨earlier, w, hworkers, hended, hprogress, howner, howes⟩ := h
  exact ⟨earlier, w, hworkers, hended, hx.progress.trans hprogress, howner.trans hx.number.symm,
    howes⟩

theorem Awaits.of_readsLike (h : s.Awaits x outcome) (hx : x.ReadsLike x') :
    s.Awaits x' outcome := by
  refine ⟨h.ended, h.starts, ?_, h.orderly, ?_⟩
  · rw [hx.mime]
    exact h.hasPages
  · rw [hx.data, hx.mime, hx.maxPages]
    exact h.outcome

/-- A session that is read for as before is brought the same. -/
theorem Brings.of_readsLike (h : s.Brings x outcome task) (hx : x.ReadsLike x') :
    s.Brings x' outcome task := by
  cases h with
  | begins h =>
    rw [← hx.number, ← hx.data, ← hx.mime, ← hx.maxPages]
    exact .begins (h.of_readsLike hx)
  | goesOn h =>
    rw [← hx.number, ← hx.progress]
    exact .goesOn (h.of_readsLike hx)
  | waits h =>
    rw [← hx.number, ← hx.progress]
    exact .waits (h.of_readsLike hx)
  | tells h hdone hfault =>
    rw [← hx.number]
    exact .tells (h.of_readsLike hx) hdone hfault
  | ends hdone hcarries =>
    rw [← hx.number]
    exact .ends hdone hcarries

/-- Records, tools and what a model was asked play no part in a debt. -/
theorem Owes.of_rests (h : s.Owes x outcome) (hworkers : s'.workers = s.workers)
    (hsite : s.site.Rests s'.site) : s'.Owes x outcome := by
  obtain ⟨earlier, w, hs, hended, hprogress, howner, howes⟩ := h
  exact ⟨earlier, w, hworkers.trans hs, hended, hprogress, howner,
    howes.congr (hsite.worksAlike)⟩

theorem Awaits.of_rests (h : s.Awaits x outcome) (hworkers : s'.workers = s.workers)
    (hstarts : s'.startFault = s.startFault) (hsite : s.site.Rests s'.site) :
    s'.Awaits x outcome := by
  refine ⟨?_, hstarts.trans h.starts, h.hasPages, h.orderly.rests hsite, ?_⟩
  · rw [hworkers]
    exact h.ended
  · rw [hsite.scripts]
    exact h.outcome

theorem Brings.of_rests (h : s.Brings x outcome task) (hworkers : s'.workers = s.workers)
    (hstarts : s'.startFault = s.startFault) (hsite : s.site.Rests s'.site) :
    s'.Brings x outcome task :=
  h.imp (·.of_rests hworkers hstarts hsite) (·.of_rests hworkers hsite)

end Workshop

/-! ## Workers -/

namespace Worker

variable {w : Worker}

theorem owner_resume (w : Worker) (now : Float) (waits : Bool) (site : Site) :
    (w.resume now waits site).1.owner = w.owner := by
  rw [resume]
  cases w.stage with
  | «over» => rfl
  | waits r script call next => rfl

theorem resume_of_over (h : w.stage = .over) (now : Float) (waits : Bool) (site : Site) :
    w.resume now waits site = (w, site) := by
  rw [resume, h]
  rfl

theorem halt_of_over (h : w.stage = .over) (now : Float) (site : Site) :
    w.halt now site = (w, site) := by
  rw [halt, h]
  rfl

theorem due?_of_over (h : w.stage = .over) : w.due? = none := by
  rw [due?, h]

end Worker

/-! ## The background -/

namespace Workshop

variable {s s' : Workshop} {x : Session} {outcome : Except Fault Page} {task : Task}

/-- What is done to every worker keeps the debt of the one at work when it
leaves workers alone that are over. -/
theorem Owes.eachWorker {f : Worker → StateM Site Worker} (h : s.Owes x outcome)
    (hover : ∀ v, v.stage = .over → ∀ site, f v site = (v, site))
    (hf : ∀ w, w.owner = x.number → w.Owes outcome s.site →
      (f w s.site).1.owner = w.owner ∧ (f w s.site).1.Owes outcome (f w s.site).2) :
    (eachWorker f s).2.Owes x outcome := by
  obtain ⟨earlier, w, hworkers, hended, hprogress, howner, howes⟩ := h
  obtain ⟨howner', howes'⟩ := hf w howner howes
  rw [eachWorker_last hworkers fun v hv => hover v (hended v hv)]
  exact ⟨earlier, _, rfl, hended, hprogress, howner'.trans howner, howes'⟩

/-- Nothing is done where every worker is over. -/
theorem Awaits.eachWorker {f : Worker → StateM Site Worker} (h : s.Awaits x outcome)
    (hover : ∀ v, v.stage = .over → ∀ site, f v site = (v, site)) :
    (eachWorker f s).2.Awaits x outcome := by
  rw [eachWorker_idle fun v hv => hover v (h.ended v hv)]
  exact h

/-- The workers get on by one program each. -/
theorem brings_stride (h : s.Brings x outcome task) : (stride s).2.Brings x outcome task := by
  have hover : ∀ v : Worker, v.stage = .over → ∀ site, (if v.isReady then
      v.resume s.now s.stepwise else return v : StateM Site Worker) site = (v, site) := by
    intro v hv site
    split
    · exact Worker.resume_of_over hv _ _ site
    · rfl
  refine h.imp (·.eachWorker hover) (·.eachWorker hover fun w _ howes => ?_)
  split
  · exact ⟨w.owner_resume _ _ _, howes.resume _ _⟩
  · exact ⟨rfl, howes⟩

/-- The workers whose session was cancelled are stopped. -/
theorem brings_haltFired (h : s.Brings x outcome task) (hunfired : s.hasFired x.number = false) :
    (haltFired s).2.Brings x outcome task := by
  have hover : ∀ v : Worker, v.stage = .over → ∀ site, (if s.hasFired v.owner then
      v.halt s.now else return v : StateM Site Worker) site = (v, site) := by
    intro v hv site
    split
    · exact Worker.halt_of_over hv _ site
    · rfl
  refine h.imp (·.eachWorker hover) (·.eachWorker hover fun w howner howes => ?_)
  rw [howner, hunfired]
  exact ⟨howner, howes⟩

theorem brings_settle (h : s.Brings x outcome task) (hunfired : s.hasFired x.number = false) :
    (settle s).2.Brings x outcome task := by
  obtain ⟨hworkers, hstarts, hsite⟩ := rests_closeStreams (haltFired s).2
  exact (brings_haltFired h hunfired).of_rests hworkers hstarts hsite

/-- The place of the worker that was started last. -/
theorem workers_last {earlier : List Worker} {w : Worker} (h : s.workers = earlier ++ [w]) :
    s.workers[earlier.length]? = some w ∧
      ∀ w', s.workers.set earlier.length w' = earlier ++ [w'] := by
  rw [h]
  refine ⟨List.getElem?_concat_length, fun w' => ?_⟩
  rw [List.set_append_right _ _ (le_refl _), Nat.sub_self]
  rfl

theorem earliest_of_over {workers : List Worker} (h : ∀ v ∈ workers, v.stage = .over) :
    earliest workers = none := by
  induction workers with
  | nil => rfl
  | cons v rest ih =>
    obtain ⟨hv, hrest⟩ := List.forall_mem_cons.1 h
    rw [earliest, ih hrest, Worker.due?_of_over hv]
    rfl

/-- Only the worker that was started last is waited for where the others are
over. -/
theorem earliest_last {earlier : List Worker} (h : ∀ v ∈ earlier, v.stage = .over) (w : Worker) :
    earliest (earlier ++ [w]) = w.due?.map fun t => (earlier.length, t) := by
  induction earlier with
  | nil =>
    rw [List.nil_append, earliest, earliest]
    cases w.due? with
    | none => rfl
    | some t => rfl
  | cons v rest ih =>
    obtain ⟨hv, hrest⟩ := List.forall_mem_cons.1 h
    rw [List.cons_append, earliest, ih hrest, Worker.due?_of_over hv]
    cases w.due? with
    | none => rfl
    | some t => rfl

/-- Time passes until a program ends. -/
theorem brings_pass (h : s.Brings x outcome task) : (pass s).2.Brings x outcome task := by
  refine h.imp (fun hawaits => ?_) fun howes => ?_
  · rw [pass, earliest_of_over hawaits.ended]
    exact hawaits
  · obtain ⟨earlier, w, hworkers, hended, hprogress, howner, howes⟩ := howes
    obtain ⟨hlast, hset⟩ := workers_last hworkers
    have hearliest := earliest_last hended w
    rw [← hworkers] at hearliest
    rw [pass, hearliest]
    cases w.due? with
    | none => exact ⟨earlier, w, hworkers, hended, hprogress, howner, howes⟩
    | some t =>
      dsimp only [Option.map_some]
      rw [hlast]
      refine ⟨earlier, (w.resume t s.stepwise s.site).1, hset _, hended, hprogress, ?_,
        howes.resume _ _⟩
      exact (w.owner_resume _ _ _).trans howner

/-! ## Commands -/

/-- A command that waits for the next event of the worker waits on, or an
event has arrived. -/
theorem brings_poll (h : s.Owes x outcome) (hunfired : s.hasFired x.number = false) {task' : Task}
    (htask : task' ∈ Office.remains (poll (.awaitProgress x.number x.progress) s).1) :
    (poll (.awaitProgress x.number x.progress) s).2.Brings x outcome task' := by
  obtain ⟨earlier, w, hworkers, hended, hprogress, howner, howes⟩ := h
  obtain ⟨hlast, hset⟩ := workers_last hworkers
  rw [hprogress, poll_awaitProgress, hunfired, if_neg Bool.false_ne_true] at htask ⊢
  rw [readProgress, hlast] at htask ⊢
  dsimp only at htask ⊢
  rw [hset] at htask ⊢
  rcases howes.next with hwaiting | ⟨p, hevent, hnext⟩
  · rw [hwaiting] at htask ⊢
    obtain rfl := List.mem_singleton.1 htask
    have hbrings : Brings { s with workers := earlier ++ [w] } x outcome
        (.waiting (.awaitProgress x.number x.progress)) :=
      .waits ⟨earlier, w, rfl, hended, hprogress, howner, howes⟩
    rw [hprogress] at hbrings
    exact hbrings
  · rw [hevent] at htask ⊢
    obtain rfl := List.mem_singleton.1 htask
    rcases hnext with ⟨hdone, hcarries⟩ | ⟨hdone, hfault, howes'⟩
    · exact .ends hdone hcarries
    · exact .tells ⟨earlier, _, rfl, hended, hprogress, howner, howes'⟩ hdone hfault

/-- The worker of a session is started, and the session is told the number of
its stream. -/
theorem owes_startWorker (h : s.Awaits x outcome) (hunfired : s.hasFired x.number = false) :
    (startWorker x.number (Plan.forDocument s.site.scratch x.data x.mime x.maxPages) s).2.Owes
      { x with progress := some s.workers.length } outcome := by
  obtain ⟨t, ht, hscripts, houtcome⟩ := h.outcome
  have howes := Worker.owes_start ht h.orderly hscripts h.hasPages x.data x.maxPages x.number s.now
    s.stepwise
  rw [houtcome, ← hunfired] at howes
  exact ⟨s.workers, _, rfl, h.ended, rfl, rfl, howes⟩

/-- The open session is brought what its pages come to by what is left of the
task, whatever is left of it. -/
theorem brings_proceed (h : s.Brings x outcome task) (hx : s.bench.session = some x)
    (hunfired : s.hasFired x.number = false) :
    ∃ x', (proceed task s).2.bench.session = some x' ∧ x'.number = x.number ∧
      ∀ task' ∈ Office.remains (proceed task s).1, (proceed task s).2.Brings x' outcome task' := by
  have hpoll : s.Owes x outcome →
      ∃ x', (poll (.awaitProgress x.number x.progress) s).2.bench.session = some x' ∧
        x'.number = x.number ∧
        ∀ task' ∈ Office.remains (poll (.awaitProgress x.number x.progress) s).1,
          (poll (.awaitProgress x.number x.progress) s).2.Brings x' outcome task' := by
    intro howes
    refine ⟨x, ?_, rfl, fun task' => brings_poll howes hunfired⟩
    rw [bench_poll]
    exact hx
  cases h with
  | begins hawaits =>
    have howes := owes_startWorker hawaits hunfired
    have hbegin : proceed (.fresh (.readPages x.number x.data x.mime x.maxPages)) s =
        poll (.awaitProgress x.number (some s.workers.length)) (startWorker x.number
          (Plan.forDocument s.site.scratch x.data x.mime x.maxPages) s).2 := by
      show begin (.readPages x.number x.data x.mime x.maxPages) s = _
      rw [begin_readPages, hawaits.starts]
    rw [hbegin]
    refine ⟨{ x with progress := some s.workers.length }, ?_, rfl, fun task' =>
      brings_poll howes hunfired⟩
    rw [bench_poll]
    show s.bench.session.map (informed x.number s.workers.length) = _
    rw [hx, Option.map_some, informed, if_pos rfl]
  | goesOn howes => exact hpoll howes
  | waits howes => exact hpoll howes
  | tells howes hdone hfault =>
    refine ⟨x, hx, rfl, fun task' htask => ?_⟩
    obtain rfl := List.mem_singleton.1 htask
    exact .tells howes hdone hfault
  | ends hdone hcarries =>
    refine ⟨x, hx, rfl, fun task' htask => ?_⟩
    obtain rfl := List.mem_singleton.1 htask
    exact .ends hdone hcarries

end Workshop
end Intake
