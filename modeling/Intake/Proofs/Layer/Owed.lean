import Intake.Proofs.Layer.Protocol
import Intake.Proofs.Program.Orderly

/-!
# What a worker owes

A worker that was started owes an outcome: the one that reading the document
to its end gives at an orderly site where the same is to happen.  It owes it
whatever becomes of the logbook, the tools and the model meanwhile, however
often it goes on, and until its last event is read.

There are four groups.

* Readings.  `PageReading.respects_read` says what a reading does not depend
  on.
* Plans.  `Site.WorksAlike` relates two sites at which a plan is carried on
  alike; `ReadsPages.advance_alike` says so.
* Events.  `Progress.LeadsTo` says that events end with an outcome and tell of
  no fault before.
* Workers.  `Worker.Owes` is the debt: `owes_start` incurs it, `Owes.resume`
  keeps it and `Owes.next` pays it off event by event.
-/

namespace Intake

open Text

/-! ## Readings -/

namespace PageReading

open Shell

theorem respects_page (output : Utf8.Bytes) : Respects (readImage.liftExcept (pageOf output)) := by
  cases pageOf output with
  | ok page => exact respects_pure page
  | error e => exact respects_throw e

theorem respects_readImage (image : String) : Respects (readImage image) :=
  (respects_run (program_readRequest_ne image)).bind fun made => respects_page made.output

theorem respects_readOrSkip (page total : Nat) (image : String) :
    Respects (readOrSkip page total image) := by
  refine ((respects_readImage image).map some).tryCatch fun e => .ite ?_ (respects_throw e)
  exact (respects_note _ _ _).bind fun _ => respects_pure none

theorem respects_readImages (total page : Nat) (images : List String) :
    Respects (readImages total page images) := by
  induction images generalizing page with
  | nil => exact respects_pure []
  | cons image rest ih =>
    refine respects_check.bind fun _ => (respects_readOrSkip page total image).bind fun read => ?_
    exact (ih (page + 1)).bind fun later => respects_pure _

theorem respects_readPdf (cap : Int) : Respects (readPdf cap) := by
  have hrender : Respects (render cap) := by
    refine respects_scratch (f := fun folder => do
      let made ← Shell.run (renderRequest folder cap)
      return images folder made.files) fun folder => ?_
    exact (respects_run (program_renderRequest_ne folder cap)).bind fun made => respects_pure _
  refine hrender.bind fun found => .ite (respects_pure _) ?_
  exact (respects_readImages _ _ _).bind fun pages => respects_pure _

theorem respects_read (data : Utf8.Bytes) (mime : String) (cap : Int) :
    Respects (read data mime cap) := by
  refine .ite (respects_pure _) (.ite (respects_readPdf _) (.ite ?_ (respects_pure _)))
  refine respects_scratch (f := fun folder => normalPage <$> readImage (folder ++ "/input.png"))
    fun folder => ?_
  exact (respects_readImage _).map normalPage

end PageReading

/-! ## Plans -/

/-- Two sites at which a plan for pages is carried on alike. -/
structure Site.WorksAlike (s t : Site) : Prop extends s.ReadsAlike t where
  calls : t.calls.length = s.calls.length

/-- A worker that is left with a plan for pages. -/
def Stage.ReadsPages : Stage → Prop
  | .over => True
  | .waits _ _ _ next => ∀ ended, (next ended).ReadsPages

namespace Site.WorksAlike

variable {s t u : Site}

theorem trans (h : s.WorksAlike t) (h' : t.WorksAlike u) : s.WorksAlike u :=
  ⟨h.toReadsAlike.trans h'.toReadsAlike, h'.calls.trans h.calls⟩

theorem symm (h : s.WorksAlike t) : t.WorksAlike s := ⟨h.toReadsAlike.symm, h.calls.symm⟩

theorem note (h : s.WorksAlike t) (source : Source) (level : Level) (text : String) :
    (s.note source level text).WorksAlike (t.note source level text) :=
  ⟨h.toReadsAlike.note source level text, h.calls⟩

theorem launched (h : s.WorksAlike t) (r : Request) :
    (s.launched r).WorksAlike (t.launched r) := by
  refine ⟨h.toReadsAlike.launched r, ?_⟩
  rw [launched_eq, launched_eq]
  show (t.calls ++ [_]).length = (s.calls ++ [_]).length
  rw [List.length_append, List.length_append, h.calls, List.length_cons]

end Site.WorksAlike

namespace Plan

variable {s t : Site}

theorem advance_run (fired waits : Bool) (r : Request) (next : Except Fault Yield → Plan) (s : Site) :
    (run r next).advance fired waits s =
      if fired then (next (.error .cancelled)).advance fired waits s
      else
        match (s.takeScript r.program).1.startFault with
        | some e => (next (.error e)).advance fired waits (s.launched r)
        | none =>
          match (s.takeScript r.program).1.ending, waits with
          | .atOnce, false => (next ((s.takeScript r.program).1.result r)).advance fired waits
              (s.launched r)
          | _, _ => (([], .waits r (s.takeScript r.program).1 ((s.launched r).calls.length - 1)
              next), s.launched r) := by
  simp only [advance, Site.launch_eq]
  split_ifs
  · rfl
  · cases (s.takeScript r.program).1.startFault with
    | some e => rfl
    | none => rfl

/-- A plan for pages is carried on alike at sites that are alike. -/
theorem ReadsPages.advance_alike {plan : Plan} (hplan : plan.ReadsPages) (fired waits : Bool)
    (h : s.WorksAlike t) :
    (plan.advance fired waits t).1 = (plan.advance fired waits s).1 ∧
      (plan.advance fired waits s).2.WorksAlike (plan.advance fired waits t).2 ∧
      (plan.advance fired waits s).1.2.ReadsPages := by
  induction hplan generalizing s t with
  | finish last => exact ⟨rfl, h, trivial⟩
  | @emit p next _ ih =>
    simp only [advance]
    split_ifs
    · exact ⟨rfl, h.note _ _ _, trivial⟩
    · obtain ⟨htold, hafter, hstage⟩ := ih h
      refine ⟨?_, hafter, hstage⟩
      show (p :: (next.advance fired waits t).1.1, (next.advance fired waits t).1.2) =
        (p :: (next.advance fired waits s).1.1, (next.advance fired waits s).1.2)
      rw [htold]
  | note _ ih => exact ih (h.note _ _ _)
  | @run r next hr hprogram hnext ih =>
    rw [advance_run, advance_run, h.takeScript_eq hprogram, (h.launched r).calls]
    split_ifs
    · exact ih _ h
    · cases (s.takeScript r.program).1.startFault with
      | some e => exact ih _ (h.launched r)
      | none =>
        dsimp only
        split
        · exact ih _ (h.launched r)
        · exact ⟨rfl, h.launched r, hnext⟩

end Plan

/-! ## Events -/

namespace Progress

/-- Events lead to an outcome: the last one carries it, and those before it
tell of no end and no fault. -/
def LeadsTo (events : List Progress) (outcome : Except Fault Page) : Prop :=
  ∃ earlier last, events = earlier ++ [last] ∧ (∀ p ∈ earlier, p.done = false ∧ p.fault = none) ∧
    last.done = true ∧ last.Carries outcome

theorem Earlier.fault_eq_none {image : Bool} {told : List Progress} (h : Earlier image told) :
    ∀ p ∈ told, p.fault = none := by
  intro p hp
  cases h with
  | silent => exact absurd hp List.not_mem_nil
  | picture => rw [List.mem_singleton.1 hp]; rfl
  | pages htotal hpage =>
    rcases List.mem_cons.1 hp with rfl | hp
    · rfl
    · obtain ⟨i, -, rfl⟩ := List.mem_map.1 hp
      rfl

/-- Events that keep to the protocol lead to the outcome they close with. -/
theorem Closes.leadsTo {events : List Progress} {outcome : Except Fault Page} {image : Bool}
    (h : Closes events outcome) (hevents : Complete image events) : LeadsTo events outcome := by
  obtain ⟨earlier, last, rfl, hearlier, hlast⟩ := h
  obtain ⟨told, last', heq, htold, -⟩ := hevents
  obtain ⟨rfl, -⟩ := List.append_inj' heq rfl
  exact ⟨earlier, last, rfl, fun p hp => ⟨hearlier p hp, htold.fault_eq_none p hp⟩, hlast⟩

/-- The first event is the last one, or the others lead to the outcome. -/
theorem LeadsTo.of_cons {p : Progress} {events : List Progress} {outcome : Except Fault Page}
    (h : LeadsTo (p :: events) outcome) :
    (p.done = true ∧ p.Carries outcome) ∨
      (p.done = false ∧ p.fault = none ∧ LeadsTo events outcome) := by
  obtain ⟨earlier, last, heq, hearlier, hlast⟩ := h
  cases earlier with
  | nil =>
    obtain ⟨rfl, -⟩ := List.cons.inj heq
    exact Or.inl hlast
  | cons q earlier =>
    obtain ⟨rfl, rfl⟩ := List.cons.inj heq
    obtain ⟨hdone, hfault⟩ := hearlier p List.mem_cons_self
    exact Or.inr ⟨hdone, hfault, earlier, last, rfl,
      fun q hq => hearlier q (List.mem_cons_of_mem _ hq), hlast⟩

end Progress

/-! ## Workers -/

namespace Worker

/-- A worker owes an outcome at a site: the events that it has put out, and
those it is left to put out at a steady site that is alike, lead to it. -/
structure Owes (outcome : Except Fault Page) (w : Worker) (s : Site) : Prop where
  pages : w.stage.ReadsPages
  unbroken : w.events.broken = none
  unread : w.events.closed = false
  events : ∃ t worked, s.WorksAlike t ∧ Promises worked (w, t) ∧
    Progress.LeadsTo worked.1 outcome

variable {outcome : Except Fault Page} {w : Worker} {s t u : Site}

theorem Owes.congr (h : w.Owes outcome s) (hs : s.WorksAlike t) : w.Owes outcome t := by
  obtain ⟨u, worked, hu, hevents⟩ := h.events
  exact ⟨h.pages, h.unbroken, h.unread, u, worked, hs.symm.trans hu, hevents⟩

/-- A worker that is carried on with a plan for pages does the same at sites
that are alike. -/
theorem carryOn_alike {plan : Plan} (hplan : plan.ReadsPages) (w : Worker) (now : Float)
    (waits : Bool) (h : s.WorksAlike t) :
    w.carryOn now false waits plan t =
        ((w.carryOn now false waits plan s).1, (w.carryOn now false waits plan t).2) ∧
      (w.carryOn now false waits plan s).2.WorksAlike (w.carryOn now false waits plan t).2 ∧
      (w.carryOn now false waits plan s).1.stage.ReadsPages ∧
      (w.carryOn now false waits plan s).1.events.broken = w.events.broken ∧
      (w.carryOn now false waits plan s).1.events.closed = w.events.closed := by
  obtain ⟨htold, hafter, hstage⟩ := hplan.advance_alike false waits h
  obtain ⟨hbroken, hclosed⟩ := frames_take w now (plan.advance false waits s).1.1
    (plan.advance false waits s).1.2
  rw [carryOn_eq, carryOn_eq, htold]
  exact ⟨rfl, hafter, hstage, hbroken, hclosed⟩

/-- A worker that was started owes what a reading gives where the same is to
happen. -/
theorem owes_start (hs : s.Orderly) (ht : t.Orderly) (hscripts : s.scripts = t.scripts)
    {mime : String} (hmime : Mime.isPdf mime = true ∨ Mime.isImage mime = true)
    (data : Utf8.Bytes) (cap : Int) (owner : Nat) (now : Float) (waits : Bool) :
    (start owner now false waits (Plan.forDocument t.scratch data mime cap) t).1.Owes
      (PageReading.read data mime cap s).1
      (start owner now false waits (Plan.forDocument t.scratch data mime cap) t).2 := by
  have hplan := Plan.readsPages_forDocument t.scratch data mime cap
  have hspared : t.WorksAlike t.spared := ⟨t.readsAlike_spared, rfl⟩
  obtain ⟨hworker, hafter, hstage, hbroken, hclosed⟩ := carryOn_alike hplan
    { owner := owner, stage := .over, since := now } now waits hspared
  -- How often programs were started before plays no part in a reading.
  have hread : (PageReading.read data mime cap { s.spared with calls := t.calls }).1 =
      (PageReading.read data mime cap s).1 :=
    (PageReading.respects_read data mime cap s { s.spared with calls := t.calls }
      ⟨rfl, s.readsAlike_spared.scripts, rfl, rfl⟩).1
  have hstep : Site.InStep { s.spared with calls := t.calls } t.spared := by
    refine ⟨hs.steady_spared.congr rfl rfl rfl, ht.steady_spared, ?_, ?_⟩
    · show s.scripts.filter _ = t.scripts.filter _
      rw [hscripts]
    · exact List.forall₂_same.2 fun c _ =>
        ⟨List.forall₂_same.2 fun word _ => .word word, rfl⟩
  have hagrees := Plan.agrees_complete hstep hmime data cap
  have hcloses := hagrees.closes
  rw [hread] at hcloses
  have hpromises := promises_carryOn (w := { owner := owner, stage := .over, since := now })
    rfl hplan.unlimited ht.steady_spared now waits
  rw [List.nil_append] at hpromises
  refine ⟨hstage, hbroken, hclosed, _, _, hafter, ?_, hcloses.leadsTo
    ((Plan.obeys_forDocument t.scratch data mime cap).complete (.silent _) t.spared)⟩
  rw [hworker] at hpromises
  exact hpromises

theorem Owes.resume (h : w.Owes outcome s) (now : Float) (waits : Bool) :
    (w.resume now waits s).1.Owes outcome (w.resume now waits s).2 := by
  obtain ⟨t, worked, ht, hpromises, hleads⟩ := h.events
  have hresumed : Promises worked (w.resume now waits t) := hpromises.resume now
  have hpages := h.pages
  rw [Worker.resume] at hresumed ⊢
  cases hstage : w.stage with
  | «over» => exact h
  | waits r script call next =>
    rw [hstage] at hpages hresumed
    dsimp only at hresumed
    obtain ⟨hworker, hafter, hstage', hbroken, hclosed⟩ :=
      carryOn_alike (hpages (script.result r)) w now waits ht
    refine ⟨hstage', hbroken.trans h.unbroken, hclosed.trans h.unread, _, worked, hafter, ?_,
      hleads⟩
    rw [hworker] at hresumed
    exact hresumed

/-- The next event is the last one, or the worker still owes the outcome; and
as long as no event has arrived the stream does not change. -/
theorem Owes.next (h : w.Owes outcome s) :
    (w.events.next = (.waiting, w.events)) ∨
      ∃ p, w.events.next.1 = .event p ∧ ((p.done = true ∧ p.Carries outcome) ∨
        (p.done = false ∧ p.fault = none ∧
          Owes outcome { w with events := w.events.next.2 } s)) := by
  obtain ⟨t, worked, ht, hpromises, hleads⟩ := h.events
  have hevents := hpromises.events
  cases harrived : w.events.arrived with
  | nil =>
    cases hended : w.events.ended with
    | false =>
      exact Or.inl (by simp [ProgressStream.next, h.unbroken, h.unread, harrived, hended])
    | true =>
      rw [hpromises.stream hended, harrived] at hevents
      obtain ⟨earlier, last, hsnoc, -⟩ := hleads
      exact absurd (hevents.symm.trans hsnoc).symm
        (List.append_ne_nil_of_right_ne_nil _ (List.cons_ne_nil _ _))
  | cons p rest =>
    have hnext : w.events.next = (.event p, { w.events with arrived := rest }) := by
      simp [ProgressStream.next, h.unbroken, h.unread, harrived]
    rw [hnext]
    refine Or.inr ⟨p, rfl, ?_⟩
    rw [harrived, List.cons_append] at hevents
    rw [hevents] at hleads
    rcases hleads.of_cons with hlast | ⟨hdone, hfault, hlater⟩
    · exact Or.inl hlast
    refine Or.inr ⟨hdone, hfault, ?_⟩
    refine ⟨h.pages, h.unbroken, h.unread, t, (_, worked.2), ht, ?_, hlater⟩
    exact ⟨hpromises.steady, hpromises.unlimited, hpromises.stream, rfl, hpromises.site⟩

end Worker
end Intake
