import Intake.Proofs.Layer.Accord
import Intake.Proofs.Layer.Heeded
import Intake.Proofs.Layer.Watched

/-!
# Cancelled readings

A reading whose cancellation fires says so in the end, at whatever instant it
fires, unless it fires as the last program ends by itself.  Then what the
program gave is delivered.

There are two groups.

* Watches.  `Watch.Since` is what a worker can have put out since its
  cancellation fired, and `Watch.told_of_fired` is what it puts out in the end.
* Readings.  `heeded_forDocument` is the result for the reading and the worker;
  `not_cancelled_of_fired` is the exception at work.
-/

namespace Intake

/-! ## Watches -/

/-- A worker that waits for a program of a plan that heeds the cancellation. -/
def Stage.Heeds : Stage → Prop
  | .over => True
  | .waits r _ _ next => (Plan.run r next).Heeds

theorem Plan.Heeds.advance {plan : Plan} (h : plan.Heeds) (fired waits : Bool) (t : Site) :
    (plan.advance fired waits t).1.2.Heeds := by
  induction h generalizing t with
  | finish last => trivial
  | @emit p next _ ih =>
    simp only [Plan.advance]
    split_ifs
    · trivial
    · exact ih t
  | note _ ih => exact ih _
  | @run r next hcancelled hended hnext ih =>
    cases fired with
    | true =>
      rw [advance_run_of_fired]
      exact ih _ t
    | false =>
      rcases advance_run_cases r next waits t with hgoes | ⟨-, call, hwaits⟩
      · rw [hgoes]
        exact ih _ _
      · rw [hwaits]
        exact .run hcancelled hended hnext

namespace Watch

variable {image waits : Bool} {w v : Watch}

theorem heeds_step (h : w.worker.stage.Heeds) (hstep : Step waits w v) :
    v.worker.stage.Heeds := by
  cases hstep with
  | fires => exact h
  | @ends now r script call next hstage =>
    rw [hstage] at h
    cases h with
    | run _ _ hnext => exact (hnext (script.result r)).advance w.fired waits w.site
  | stops now =>
    rw [Worker.halt]
    cases hstage : w.worker.stage with
    | «over» => exact h
    | waits r script call next =>
      rw [hstage] at h
      cases h with
      | run _ _ hnext => exact (hnext (.error .cancelled)).advance true false _
  | reads => exact h

theorem heeds_reaches (h : w.worker.stage.Heeds) (hreaches : Reaches waits w v) :
    v.worker.stage.Heeds := by
  induction hreaches with
  | refl => exact h
  | tail _ hstep ih => exact heeds_step ih hstep

/-- What a worker can have put out since its cancellation fired while it
waited: nothing yet, or one last event. -/
inductive Since (w : Watch) (r : Request) (script : Script) (next : Except Fault Yield → Plan)
    (v : Watch) : Prop where
  | waiting (hfired : v.fired = true) (hstage : v.worker.stage = w.worker.stage)
      (htold : v.told = w.told) : Since w r script next v
  | «over» {last : Progress} (hfired : v.fired = true) (hstage : v.worker.stage = .over)
      (htold : v.told = w.told ++ [last])
      (hlast : last = .failed .cancelled ∨ (next (script.result r)).last? = some last) :
      Since w r script next v

section Since

variable {u : Watch} {r : Request} {script : Script} {call : Nat}
  {next : Except Fault Yield → Plan}

/-- A worker whose cancellation has fired is over once it is carried on, with
one last event. -/
theorem Since.carryOn (hu : u.Obeys image) (hfired : u.fired = true)
    (hstage : u.worker.stage = .waits r script call next) (htold : u.told = w.told)
    {ended : Except Fault Yield} (hended : (next ended).Heeds)
    (hlast : ∀ last ∈ (next ended).last?,
      last = .failed .cancelled ∨ (next (script.result r)).last? = some last)
    (now : Float) (waits : Bool) (t : Site) :
    w.Since r script next (u.carried (u.worker.carryOn now true waits (next ended) t)) := by
  have hover := (Plan.advance_of_fired (next ended) waits t).1
  have hcarried := told_carried now true waits (next ended) t (hu.not_ended hstage)
  rw [hended.told_of_fired, htold] at hcarried
  refine .over hfired hover hcarried ?_
  cases hnone : (next ended).last? with
  | none => exact .inl rfl
  | some last => exact hlast last hnone

theorem Since.step (hstage : w.worker.stage = .waits r script call next)
    (hheeds : (Plan.run r next).Heeds) (hu : u.Obeys image) (h : w.Since r script next u)
    (hstep : Step waits u v) : w.Since r script next v := by
  cases hheeds with
  | run hcancelled _ hnext =>
    cases h with
    | waiting hfired hsame htold =>
      have hwaits := hsame.trans hstage
      cases hstep with
      | fires => exact .waiting rfl hsame htold
      | ends now hends =>
        obtain ⟨rfl, rfl, rfl, rfl⟩ := Stage.waits.inj (hends.symm.trans hwaits)
        rw [hfired]
        exact .carryOn hu hfired hwaits htold (hnext _) (fun last hlast => .inr hlast) now waits _
      | stops now =>
        have hhalt : u.worker.halt now u.site =
            u.worker.carryOn now true false (next (.error .cancelled)) (u.site.stopCall call) := by
          rw [Worker.halt, hwaits]
          rfl
        rw [hhalt]
        refine .carryOn hu hfired hwaits htold (hnext _) (fun last hlast => .inl ?_) now false _
        rw [hcancelled] at hlast
        exact (Option.some.inj hlast).symm
      | reads hanswer => exact .waiting hfired hsame ((told_readNext hu hanswer).trans htold)
    | «over» hfired hover htold hlast =>
      cases hstep with
      | fires => exact .over rfl hover htold hlast
      | ends now hends => exact absurd (hends.symm.trans hover) Stage.noConfusion
      | stops now =>
        have hhalt : u.worker.halt now u.site = (u.worker, u.site) := by
          rw [Worker.halt, hover]
          rfl
        rw [hhalt]
        exact .over hfired hover htold hlast
      | reads hanswer =>
        exact .over hfired hover ((told_readNext hu hanswer).trans htold) hlast

theorem Since.reaches (hstage : w.worker.stage = .waits r script call next)
    (hheeds : (Plan.run r next).Heeds) (hw : w.Obeys image) (hfired : w.fired = true)
    (hreaches : Reaches waits w v) : w.Since r script next v := by
  induction hreaches with
  | refl => exact .waiting hfired rfl rfl
  | tail hu hstep ih => exact ih.step hstage hheeds (hw.reaches hu) hstep

end Since

/-- When the cancellation fires while a worker waits, it puts out one more
event: the cancellation, or what the program gave that it waited for, if this
ended by itself and nothing but the last event was left to do. -/
theorem told_of_fired (hw : w.Obeys image) (hheeds : w.worker.stage.Heeds)
    (hfired : w.fired = true) (hwaits : w.worker.stage ≠ .over) (hreaches : Reaches waits w v)
    (hover : v.worker.stage = .over) :
    v.told = w.told ++ [.failed .cancelled] ∨
      ∃ r script call next last, w.worker.stage = .waits r script call next ∧
        (next (script.result r)).last? = some last ∧ last.fault ≠ some .cancelled ∧
        v.told = w.told ++ [last] := by
  cases hstage : w.worker.stage with
  | «over» => exact absurd hstage hwaits
  | waits r script call next =>
    rw [hstage] at hheeds
    cases Since.reaches hstage hheeds hw hfired hreaches with
    | waiting _ hsame => exact absurd (hsame.symm.trans hover) hwaits
    | @«over» last _ _ htold hlast =>
      rcases hlast with rfl | hlast
      · exact .inl htold
      · cases hheeds with
        | run _ hended _ =>
          exact .inr ⟨r, script, call, next, last, rfl, hlast, hended script last hlast, htold⟩

end Watch

/-! ## Readings -/

namespace PageReading

variable {data : Text.Utf8.Bytes} {mime : String} {cap : Int} {s : Site} {last : Progress}

theorem carries_of_complete (hmime : Mime.isPdf mime = true ∨ Mime.isImage mime = true)
    {earlier : List Progress}
    (h : ((Plan.forDocument s.scratch data mime cap).complete s).1 = earlier ++ [last]) :
    last.Carries (read data mime cap s).1 := by
  have hcloses := (Plan.accords_complete (Site.ReadsAlike.rfl (s := s)) hmime data cap).closes
  rw [h] at hcloses
  exact hcloses.carries

theorem read_of_fired (hdata : data ≠ [])
    (hmime : Mime.isPdf mime = true ∨ Mime.isImage mime = true) (h : s.fired = true) :
    (read data mime cap s).1 = .error .cancelled := by
  have hevents := (Plan.heeds_forDocument s.scratch data mime cap).complete_of_fired h
  rw [Plan.last?_forDocument _ hdata] at hevents
  exact Progress.outcome_of_carries (carries_of_complete hmime (hevents.trans rfl : _ = [] ++ _))

/-- Where the cancellation slips through, the last program's pages are delivered or it is told
how this program failed. -/
theorem carries_of_slips (hmime : Mime.isPdf mime = true ∨ Mime.isImage mime = true)
    (h : (Plan.forDocument s.scratch data mime cap).Slips s last) :
    last.Carries (read data mime cap s).1 ∧ (read data mime cap s).1 ≠ .error .cancelled := by
  obtain ⟨⟨earlier, hevents⟩, hfault⟩ :=
    h.complete (Plan.heeds_forDocument s.scratch data mime cap)
  have hcarries := carries_of_complete hmime hevents
  refine ⟨hcarries, fun hread => hfault ?_⟩
  rw [hread] at hcarries
  exact hcarries.2.2

theorem read_eq_cancelled_iff (hdata : data ≠ [])
    (hmime : Mime.isPdf mime = true ∨ Mime.isImage mime = true) (hpresent : s.abandoned = false)
    (hfired : (read data mime cap s).2.fired = true) :
    (read data mime cap s).1 = .error .cancelled ↔
      ¬ ∃ last, (Plan.forDocument s.scratch data mime cap).Slips s last := by
  refine ⟨fun hread hslips => (carries_of_slips hmime hslips.choose_spec).2 hread, fun hnone => ?_⟩
  cases hs : s.fired with
  | true => exact read_of_fired hdata hmime hs
  | false =>
    have halike := (Plan.accords_complete (Site.ReadsAlike.rfl (s := s)) hmime data cap).alike
    have hlimit := (Plan.readsPages_forDocument s.scratch data mime cap).unlimited
    rcases (Plan.heeds_forDocument s.scratch data mime cap).accounts hlimit hpresent hs
      (halike.fired_eq.trans hfired) with ⟨earlier, hevents⟩ | hlast
    · exact Progress.outcome_of_carries (carries_of_complete hmime hevents)
    · exact absurd hlast hnone

end PageReading

/-- A worker that is started when its cancellation has fired puts out nothing else. -/
theorem Watch.told_begin_of_fired {data : Text.Utf8.Bytes} (hdata : data ≠ [])
    (folder mime : String) (cap : Int) (owner : Nat) (now : Float) (waits : Bool) (t : Site) :
    (Watch.begin owner now true waits (Plan.forDocument folder data mime cap) t).told =
      [.failed .cancelled] := by
  have htold := (Plan.heeds_forDocument folder data mime cap).told_of_fired waits t
  rw [Plan.last?_forDocument _ hdata] at htold
  have hbegin := told_carried
    (w := ⟨{ owner := owner, stage := .over, since := now }, t, true, []⟩) now true waits
    (Plan.forDocument folder data mime cap) t rfl
  exact hbegin.trans htold

/-- A reading whose cancellation fires before it is over ends with the
cancellation, unless the cancellation slips through: it fires during the last
program, which ends by itself, and what this program gave is delivered.  The
last event of the worker carries the same.  When its cancellation fires while
it waits for a program, it puts out the cancellation, unless that program ends
by itself and was the last one. -/
theorem heeded_forDocument {data : Text.Utf8.Bytes} {mime : String} (hdata : data ≠ [])
    (hmime : Mime.isPdf mime = true ∨ Mime.isImage mime = true) (cap : Int) :
    (∀ s : Site, s.abandoned = false →
      Progress.Closes ((Plan.forDocument s.scratch data mime cap).complete s).1
          (PageReading.read data mime cap s).1 ∧
        ((Plan.forDocument s.scratch data mime cap).complete s).2.fired =
          (PageReading.read data mime cap s).2.fired ∧
        (s.fired = true → (PageReading.read data mime cap s).1 = .error .cancelled) ∧
        ((PageReading.read data mime cap s).2.fired = true →
          ((PageReading.read data mime cap s).1 = .error .cancelled ↔
            ¬ ∃ last, (Plan.forDocument s.scratch data mime cap).Slips s last)) ∧
        ∀ last, (Plan.forDocument s.scratch data mime cap).Slips s last →
          last.Carries (PageReading.read data mime cap s).1) ∧
      ∀ (folder : String) (owner : Nat) (now : Float) (waits : Bool) (t : Site),
        (Watch.begin owner now true waits (Plan.forDocument folder data mime cap) t).told =
            [.failed .cancelled] ∧
          ∀ (fired : Bool) (w v : Watch),
            Watch.Reaches waits
                (.begin owner now fired waits (Plan.forDocument folder data mime cap) t) w →
              w.fired = true → w.worker.stage ≠ .over →
              Watch.Reaches waits w v → v.worker.stage = .over →
                v.told = w.told ++ [.failed .cancelled] ∨
                  ∃ r script call next last, w.worker.stage = .waits r script call next ∧
                    (next (script.result r)).last? = some last ∧
                    last.fault ≠ some .cancelled ∧ v.told = w.told ++ [last] := by
  constructor
  · intro s hpresent
    obtain ⟨hcloses, halike⟩ := Plan.accords_complete (Site.ReadsAlike.rfl (s := s)) hmime data cap
    exact ⟨hcloses, halike.fired_eq, PageReading.read_of_fired hdata hmime,
      PageReading.read_eq_cancelled_iff hdata hmime hpresent,
      fun _ hslips => (PageReading.carries_of_slips hmime hslips).1⟩
  · intro folder owner now waits t
    refine ⟨Watch.told_begin_of_fired hdata folder mime cap owner now waits t,
      fun fired w v hw hfired hwaits hv hover => ?_⟩
    have hobeys := (Watch.obeys_begin (Plan.obeys_forDocument folder data mime cap) owner now
      fired waits t).reaches hw
    have hheeds := Watch.heeds_reaches (w := .begin owner now fired waits
      (Plan.forDocument folder data mime cap) t)
      ((Plan.heeds_forDocument folder data mime cap).advance fired waits t) hw
    exact Watch.told_of_fired hobeys hheeds hfired hwaits hv hover

/-- A site at which a document has one page, and the cancellation fires just as the
engine has read it. -/
def Site.lastMoment : Site where
  scripts := [(Tool.rasterizer.name, [{ pages := some 1 }]),
    (Tool.ocrEngine.name, [{ firing := .atEnd }])]
  signal := some false

theorem isPdf_pdf : Mime.isPdf "application/pdf" = true := by decide +kernel

/-- The cancellation has fired, and the page is delivered all the same. -/
theorem read_lastMoment :
    (PageReading.read [37] "application/pdf" 0 .lastMoment).2.fired = true ∧
      ∃ page, (PageReading.read [37] "application/pdf" 0 .lastMoment).1 = .ok page := by
  have hok : (PageReading.read [37] "application/pdf" 0 .lastMoment).1.isOk = true := by
    decide +kernel
  refine ⟨by decide +kernel, ?_⟩
  cases hread : (PageReading.read [37] "application/pdf" 0 .lastMoment).1 with
  | ok page => exact ⟨page, rfl⟩
  | error e =>
    rw [hread] at hok
    cases hok

theorem heeded_onePage :
    (PageReading.read [37] "application/pdf" 0 { signal := some true }).1 = .error .cancelled ∧
      ∃ last, (Plan.forDocument "" [37] "application/pdf" 0).Slips .lastMoment last ∧
        last.Carries (PageReading.read [37] "application/pdf" 0 .lastMoment).1 := by
  have hheeded := (heeded_forDocument (List.cons_ne_nil 37 []) (.inl isPdf_pdf) 0).1
  obtain ⟨hfired, page, hpage⟩ := read_lastMoment
  obtain ⟨-, -, -, hslips, hcarries⟩ := hheeded .lastMoment rfl
  have hexists : ∃ last,
      (Plan.forDocument "" [37] "application/pdf" 0).Slips .lastMoment last := by
    by_contra hnone
    have hcancelled := (hslips hfired).2 hnone
    rw [hpage] at hcancelled
    cases hcancelled
  obtain ⟨last, hlast⟩ := hexists
  exact ⟨(hheeded { signal := some true } rfl).2.2.1 rfl, last, hlast, hcarries last hlast⟩

/-- A cancellation that fires just as the last program ends is not reported. -/
theorem not_cancelled_of_fired :
    ¬ ∀ (data : Text.Utf8.Bytes) (mime : String) (cap : Int) (s : Site), data ≠ [] →
      (Mime.isPdf mime = true ∨ Mime.isImage mime = true) → s.abandoned = false →
      (PageReading.read data mime cap s).2.fired = true →
      (PageReading.read data mime cap s).1 = .error .cancelled := by
  intro h
  obtain ⟨hfired, page, hpage⟩ := read_lastMoment
  have hcancelled := h [37] "application/pdf" 0 .lastMoment (List.cons_ne_nil 37 [])
    (.inl isPdf_pdf) rfl hfired
  rw [hpage] at hcancelled
  cases hcancelled

end Intake
