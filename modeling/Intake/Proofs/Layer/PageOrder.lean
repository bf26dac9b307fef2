import Intake.Proofs.Layer.PageNames
import Intake.Proofs.Layer.Turning
import Intake.Proofs.Layer.Watched

/-!
# Page order

A document is read in page order: the images that the rasterizer leaves are
found in that order however the folder lists them, they are handed to the
engine in that order, and all that is told, reported and put together follows
it.

There are four groups.

* Plans.  `Plan.afterImage` and `Plan.afterRendering` are what is left of a plan
  once a program has ended.
* Stages.  `Stands` says where a worker stands that turns the pages, and
  `carried_readImages` is the induction over the images that are left.
* Watches.  `Watch.turns_reaches` says where a worker stands at any time.
* Documents.  `ordered_forDocument` is the result.
-/

namespace Intake

open Text Number
open PageReading (Lists Renders capInForce held pageGiven pageImages readRequest renderRequest
  skipReports)

/-! ## Plans -/

namespace Plan

/-- What is left to do once the engine has ended that was handed an image. -/
def afterImage (total page : Nat) (held : List Page) (rest : List String)
    (ended : Except Fault Yield) : Plan :=
  match ended.bind fun made => PageReading.pageOf made.output with
  | .ok read => readImages total (page + 1) (held ++ [read]) rest
  | .error e =>
    if e.isTool then
      note .warning (PageReading.skipText page total e) (readImages total (page + 1) held rest)
    else stop e

/-- What is left to do once the rasterizer has ended. -/
def afterRendering (folder : String) (ended : Except Fault Yield) : Plan :=
  match ended with
  | .error e => stop e
  | .ok made =>
    match PageReading.images folder made.files with
    | [] => finish (.result {})
    | found => emit (.rendered found.length) (readImages found.length 1 [] found)

theorem readImages_cons (total page : Nat) (held : List Page) (image : String)
    (rest : List String) :
    readImages total page held (image :: rest) =
      emit (.started page total)
        (run (readRequest image) (afterImage total page held rest)) := rfl

theorem readPdf_eq (folder : String) (cap : Int) :
    readPdf folder cap =
      run (renderRequest folder cap) (afterRendering folder) := rfl

end Plan

/-! ## Stages -/

/-- The last event of a worker that has dealt with so many pages. -/
structure Ends (fired : Bool) (r : Request) (images : List String) (s : Site) (dealt : Nat)
    (last : Progress) : Prop where
  done : last.done = true
  settles : ∃ outcome, last.Carries outcome ∧
    Settles (fun e => fired = true ∧ e = .cancelled) r images s dealt outcome

/-- A worker that nothing hinders carries all pages. -/
theorem Ends.of_not_hinders {r : Request} {images : List String} {s : Site} {dealt : Nat}
    {last : Progress} (h : Ends false r images s dealt last)
    (hhinders : ∀ e, ¬ Hinders r s dealt e) :
    dealt = images.length ∧
      last.Carries (.ok (Pages.merge (held s images.length))) := by
  obtain ⟨-, outcome, hcarries, hsettles⟩ := h
  obtain ⟨hdealt, houtcome⟩ :=
    hsettles.eq_of_not_hinders (fun _ h => Bool.false_ne_true h.1) hhinders
  exact ⟨hdealt, houtcome ▸ hcarries⟩

/-- Where a worker stands that reads a PDF at a site. -/
inductive Stands (fired : Bool) (folder : String) (cap : Int) (images : List String) (s : Site) :
    Stage → List Progress → Site → Prop where
  | rendering {call : Nat} {t : Site}
      (hgiven : (s.takeScript Tool.rasterizer.name).1.given (renderRequest folder cap) =
        (s.takeScript Tool.rasterizer.name).1.result (renderRequest folder cap))
      (h : Turned images (s.launched (renderRequest folder cap)) t 0 0) :
      Stands fired folder cap images s
        (.waits (renderRequest folder cap) (s.takeScript Tool.rasterizer.name).1 call
          (Plan.afterRendering folder)) [] t
  | reading {k call : Nat} {image : String} {t : Site}
      (hgiven : (s.nth Tool.ocrEngine.name k).given (readRequest image) =
        (s.nth Tool.ocrEngine.name k).result (readRequest image))
      (h : Turned images (s.launched (renderRequest folder cap)) t (k + 1) k) :
      Stands fired folder cap images s
        (.waits (readRequest image) (s.nth Tool.ocrEngine.name k) call
          (Plan.afterImage images.length (k + 1) (held s k) (images.drop (k + 1))))
        (Progress.paging images.length (k + 1)) t
  | ended {m dealt : Nat} {last : Progress} {t : Site}
      (h : Course (renderRequest folder cap) images s t (m - 1) dealt)
      (hlast : Ends fired (renderRequest folder cap) images s dealt last) :
      Stands fired folder cap images s .over
        ((Progress.paging images.length images.length).take m ++ [last]) t

/-- A worker that has told these events stands in its place once it is carried
on with a plan. -/
def Carried (fired waits : Bool) (folder : String) (cap : Int) (images : List String) (s : Site)
    (plan : Plan) (told : List Progress) (t : Site) : Prop :=
  Stands fired folder cap images s (plan.advance fired waits t).1.2
    (told ++ (plan.advance fired waits t).1.1) (plan.advance fired waits t).2

section Carrying

variable {fired waits : Bool} {folder : String} {cap : Int} {images : List String} {s t u : Site}
  {told : List Progress} {m k dealt : Nat}

theorem Course.congr {r : Request} {handed : Nat} (h : Course r images s t handed dealt)
    (hu : t.Abreast u) : Course r images s u handed dealt := by
  cases h with
  | unopened hstarted hwarnings =>
    exact .unopened (hu.started.trans hstarted) (hu.warnings.trans hwarnings)
  | opened h => exact .opened (h.congr hu)

theorem take_paging_of_le (hk : k ≤ images.length) :
    (Progress.paging images.length images.length).take (k + 1) =
      Progress.paging images.length k := by
  rw [Progress.take_paging, Nat.min_eq_left hk]

/-- A worker that stops with a fault has put its last event out. -/
theorem carried_stop {e : Fault}
    (h : Course (renderRequest folder cap) images s t (m - 1) dealt)
    (htold : told = (Progress.paging images.length images.length).take m)
    (he : (fired = true ∧ e = .cancelled) ∨
      Hinders (renderRequest folder cap) s dealt e) :
    Carried fired waits folder cap images s (.stop e) told t := by
  rw [htold]
  exact .ended (h.congr (t.abreast_note .progress Level.noConfusion _))
    ⟨rfl, .error e, ⟨rfl, rfl, rfl⟩, he⟩

theorem carried_result
    (h : Course (renderRequest folder cap) images s t (m - 1) images.length)
    (htold : told = (Progress.paging images.length images.length).take m) :
    Carried fired waits folder cap images s
      (.finish (.result (Pages.merge (held s images.length)))) told t := by
  rw [htold]
  exact .ended h ⟨rfl, .ok _, ⟨rfl, rfl, rfl⟩, rfl, rfl⟩

/-- Where the cancellation has fired, no event is told but that. -/
theorem carried_emit_of_fired {p : Progress} {next : Plan}
    (h : Carried true waits folder cap images s (.stop .cancelled) told t) :
    Carried true waits folder cap images s (.emit p next) told t := h

theorem carried_emit {p : Progress} {next : Plan}
    (h : Carried false waits folder cap images s next (told ++ [p]) t) :
    Carried false waits folder cap images s (.emit p next) told t := by
  rw [Carried, List.append_assoc] at h
  exact h

/-- Dealing with an image that was handed over.  What follows is known of the
images behind it. -/
theorem carried_afterImage {rest : List String}
    (hnext : ∀ {t : Site}, Turned images (s.launched (renderRequest folder cap)) t
      (k + 1) (k + 1) → Carried fired waits folder cap images s
        (.readImages images.length (k + 2) (held s (k + 1)) rest)
        (Progress.paging images.length (k + 1)) t)
    (h : Turned images (s.launched (renderRequest folder cap)) t (k + 1) k)
    {ended : Except Fault Yield}
    (hended : (ended.bind fun made => PageReading.pageOf made.output) =
      pageGiven (s.nth Tool.ocrEngine.name k)) :
    Carried fired waits folder cap images s
      (.afterImage images.length (k + 1) (held s k) rest ended)
      (Progress.paging images.length (k + 1)) t := by
  have hnth := PageReading.nth_launched_renderRequest s folder cap k
  rw [Plan.afterImage, hended]
  -- the page is read, all pages are given up for it, or it is left out
  rcases PageReading.pageGiven_cases (s.nth Tool.ocrEngine.name k) with
    ⟨page, hpage, hsome, hfatal⟩ | ⟨e, hpage, htool, hfatal⟩ | ⟨e, hpage, htool, hnone, hfatal⟩
  · rw [hpage]
    dsimp only
    rw [← PageReading.held_concat_of_some hsome]
    rw [← hnth] at hpage hfatal
    exact hnext (h.read hpage hfatal)
  · rw [hpage]
    dsimp only
    rw [if_neg (by rw [htool]; exact Bool.false_ne_true)]
    exact carried_stop (.opened h) (take_paging_of_le h.handed_le).symm (Or.inr (.fatal hfatal))
  · rw [hpage]
    dsimp only
    rw [if_pos htool, ← PageReading.held_concat_of_none hnone]
    rw [← hnth] at hpage hfatal
    exact hnext (h.skip hpage hfatal .progress)

/-- From any image on, a worker stands where the pages are turned.  The induction
is on the images that are left. -/
theorem carried_readImages (rest : List String) : ∀ {k : Nat} {t : Site}, images.drop k = rest →
    Turned images (s.launched (renderRequest folder cap)) t k k →
      Carried fired waits folder cap images s
        (.readImages images.length (k + 1) (held s k) rest)
        (Progress.paging images.length k) t := by
  induction rest with
  | nil =>
    intro k t hrest h
    have hk : k = images.length := Nat.le_antisymm h.handed_le (List.drop_eq_nil_iff.1 hrest)
    have htold := take_paging_of_le h.handed_le
    subst hk
    exact carried_result (m := images.length + 1) (.opened h) htold.symm
  | cons image rest ih =>
    intro k t hrest h
    obtain ⟨himage, hlater⟩ := PageReading.getElem?_of_drop_eq_cons hrest
    rw [Plan.readImages_cons]
    cases fired with
    | true =>
      exact carried_emit_of_fired (carried_stop (m := k + 1) (.opened h)
        (take_paging_of_le h.handed_le).symm (Or.inl ⟨rfl, rfl⟩))
    | false =>
      have hscript := h.takeScript_eq
      rw [PageReading.nth_launched_renderRequest] at hscript
      refine carried_emit ?_
      rw [← Progress.paging_succ, Carried]
      rcases Plan.advance_run_cases (readRequest image)
        (Plan.afterImage images.length (k + 1) (held s k) rest) waits t with
        hgoes | ⟨hgiven, call, hwaits⟩
      · rw [hgoes]
        refine carried_afterImage (fun hnext => ih hlater hnext) (h.handOn himage) ?_
        rw [PageReading.bind_given_readRequest]
        exact congrArg pageGiven hscript
      · have hread := (h.handOn himage)
        have hprogram : (readRequest image).program = Tool.ocrEngine.name := rfl
        rw [hprogram, hscript] at hgiven hwaits
        rw [hwaits, List.append_nil, ← hlater]
        exact .reading hgiven hread

theorem carried_afterRendering (himages : Renders folder cap images s)
    (h : Turned images (s.launched (renderRequest folder cap)) t 0 0) :
    Carried fired waits folder cap images s
      (.afterRendering folder ((s.takeScript Tool.rasterizer.name).1.given
        (renderRequest folder cap))) [] t := by
  cases hscript : (s.takeScript Tool.rasterizer.name).1.given
    (renderRequest folder cap) with
  | error e => exact carried_stop (m := 0) (.opened h) rfl (Or.inr (.unrendered hscript))
  | ok made =>
    have hfound := himages made hscript
    rw [Plan.afterRendering, hfound]
    cases images with
    | nil =>
      have hheld : held s ([] : List String).length = [] := rfl
      rw [← PageReading.merge_nil, ← hheld]
      exact carried_result (m := 0) (.opened h) rfl
    | cons image rest =>
      dsimp only
      cases fired with
      | true =>
        exact carried_emit_of_fired (carried_stop (m := 0) (.opened h) rfl (Or.inl ⟨rfl, rfl⟩))
      | false => exact carried_emit (carried_readImages (image :: rest) List.drop_zero h)

theorem carried_readPdf (himages : Renders folder cap images s) :
    Carried fired waits folder cap images s (.readPdf folder cap) [] s := by
  rw [Plan.readPdf_eq, Carried]
  cases fired with
  | true =>
    rw [Plan.advance_run_of_fired]
    exact carried_stop (m := 0) (.unopened rfl rfl) rfl (Or.inl ⟨rfl, rfl⟩)
  | false =>
    rcases Plan.advance_run_cases (renderRequest folder cap)
      (Plan.afterRendering folder) waits s with hgoes | ⟨hgiven, call, hwaits⟩
    · rw [hgoes]
      exact carried_afterRendering himages (Turned.start images _)
    · rw [hwaits, List.append_nil]
      exact .rendering hgiven (Turned.start images _)

/-- A worker that waits can be carried on with what its program gives, and once
its cancellation has fired also without that. -/
theorem Stands.carried (himages : Renders folder cap images s) {r : Request} {script : Script}
    {call : Nat} {next : Except Fault Yield → Plan}
    (h : Stands fired folder cap images s (.waits r script call next) told t) :
    Carried fired waits folder cap images s (next (script.result r)) told t ∧
      (fired = true → ∀ u, t.Abreast u →
        Carried fired waits folder cap images s (next (.error .cancelled)) told u) := by
  cases h with
  | rendering hgiven h =>
    rw [← hgiven]
    refine ⟨carried_afterRendering himages h, fun hfired u hu => ?_⟩
    exact carried_stop (m := 0) (.opened (h.congr hu)) rfl (Or.inl ⟨hfired, rfl⟩)
  | @reading k call image t hgiven h =>
    refine ⟨carried_afterImage (fun hnext => carried_readImages _ rfl hnext) h ?_,
      fun hfired u hu => ?_⟩
    · rw [← hgiven, PageReading.bind_given_readRequest]
    · exact carried_stop (m := k + 2) (.opened (h.congr hu)) (take_paging_of_le h.handed_le).symm
        (Or.inl ⟨hfired, rfl⟩)

/-- A cancellation that fires later is an excuse as well. -/
theorem Stands.fires {stage : Stage} (h : Stands fired folder cap images s stage told t) :
    Stands true folder cap images s stage told t := by
  cases h with
  | rendering hgiven h => exact .rendering hgiven h
  | reading hgiven h => exact .reading hgiven h
  | ended h hlast =>
    obtain ⟨hdone, outcome, hcarries, hsettles⟩ := hlast
    refine .ended h ⟨hdone, outcome, hcarries, ?_⟩
    cases outcome with
    | ok page => exact hsettles
    | error e => exact hsettles.imp_left fun ⟨_, he⟩ => ⟨rfl, he⟩

/-- At any stage the events are the first ones of those that announce the pages
in order, and behind them the last one of all if the worker is over. -/
theorem Stands.cases {stage : Stage} (h : Stands fired folder cap images s stage told t) :
    ∃ m dealt, Course (renderRequest folder cap) images s t (m - 1) dealt ∧
      (stage ≠ .over ∧ told = (Progress.paging images.length images.length).take m ∨
        ∃ last, stage = .over ∧
          told = (Progress.paging images.length images.length).take m ++ [last] ∧
          Ends fired (renderRequest folder cap) images s dealt last) := by
  cases h with
  | rendering _ h => exact ⟨0, 0, .opened h, Or.inl ⟨Stage.noConfusion, rfl⟩⟩
  | @reading k call image t _ h =>
    have htold := take_paging_of_le h.handed_le
    exact ⟨k + 2, k, .opened h, Or.inl ⟨Stage.noConfusion, htold.symm⟩⟩
  | @ended m dealt last t h hlast => exact ⟨m, dealt, h, Or.inr ⟨last, rfl, rfl, hlast⟩⟩

end Carrying

/-! ## Watches -/

namespace Watch

variable {waits : Bool} {folder : String} {cap : Int} {images : List String} {s : Site}
  {w v : Watch}

/-- A worker under watch stands where the pages are turned. -/
def Turns (folder : String) (cap : Int) (images : List String) (s : Site) (w : Watch) : Prop :=
  Stands w.fired folder cap images s w.worker.stage w.told w.site

theorem turns_carried (hended : w.worker.events.ended = false) {plan : Plan} {t : Site}
    (h : Carried w.fired waits folder cap images s plan w.told t) (now : Float) :
    (w.carried (w.worker.carryOn now w.fired waits plan t)).Turns folder cap images s := by
  rw [Turns, told_carried now w.fired waits plan t hended]
  exact h

theorem turns_begin (himages : Renders folder cap images s) (owner : Nat)
    (now : Float) (fired waits : Bool) :
    (begin owner now fired waits (.readPdf folder cap) s).Turns folder cap images s :=
  turns_carried (w := ⟨{ owner := owner, stage := .over, since := now }, s, fired, []⟩) rfl
    (carried_readPdf himages) now

theorem Turns.step (himages : Renders folder cap images s) (hobeys : w.Obeys false)
    (h : w.Turns folder cap images s) (hstep : Step waits w v) :
    v.Turns folder cap images s := by
  cases hstep with
  | fires => exact h.fires
  | ends now hstage =>
    rw [Turns, hstage] at h
    exact turns_carried (hobeys.not_ended hstage) (h.carried himages).1 now
  | stops now hfired =>
    rw [Worker.halt]
    cases hstage : w.worker.stage with
    | «over» => exact h
    | waits r script call next =>
      rw [Turns, hstage] at h
      have hcarried : Carried w.fired false folder cap images s (next (.error .cancelled))
          w.told _ := (h.carried himages).2 hfired _ (w.site.abreast_stopCall call)
      have hturns := turns_carried (hobeys.not_ended hstage) hcarried now
      rw [hfired] at hturns
      exact hturns
  | reads hanswer =>
    rw [Turns, told_readNext hobeys hanswer]
    exact h

theorem turns_reaches (himages : Renders folder cap images s)
    (hobeys : w.Obeys false) (h : w.Turns folder cap images s) (hreaches : Reaches waits w v) :
    v.Turns folder cap images s := by
  induction hreaches with
  | refl => exact h
  | tail hu hstep ih => exact ih.step himages (hobeys.reaches hu) hstep

/-- A worker that goes on whenever its program has ended is watched as well. -/
theorem reaches_of_runs {q : Worker × Site} (hfired : w.fired = false)
    (h : Worker.Runs waits (w.worker, w.site) q) : Reaches waits w (w.carried q) := by
  induction h with
  | refl => exact .refl
  | @tail u _ _ hstep ih =>
    obtain ⟨now, rfl⟩ := hstep
    obtain ⟨worker, t⟩ := u
    rw [Worker.resume]
    cases hstage : worker.stage with
    | «over» => exact ih
    | waits r script call next =>
      have hends : Step waits _ _ := .ends (w.carried (worker, t)) now hstage
      rw [show (w.carried (worker, t)).fired = false from hfired] at hends
      exact ih.tail hends

end Watch

/-! ## Documents -/

/-- The images of any number of pages are found in page order, however the
folder lists them.  They are handed to the engine in that order, pages that are
left out are reported in it, a worker announces the pages in it, and the text
and the table are put together in it. -/
theorem ordered_forDocument {width total : Nat} (hwidth : (digits total).length ≤ width) :
    (∀ folder files, Lists folder width total files →
        PageReading.images folder files = pageImages folder width total) ∧
      (∀ cap s u made,
        Shell.run (renderRequest s.scratch cap) s = (.ok made, u) →
          Lists s.scratch width total made.files →
            PageReading.render cap s = (.ok (pageImages s.scratch width total), u)) ∧
      ∀ (data : Utf8.Bytes) (mime : String) (cap : Int) (s : Site) (r : Request)
          (images : List String),
        data ≠ [] → Mime.isPdf mime = true →
        r = renderRequest s.scratch (capInForce cap) →
        images = pageImages s.scratch width total →
        (∀ made, (s.takeScript Tool.rasterizer.name).1.given r = .ok made →
          Lists s.scratch width total made.files) →
          (∃ handed dealt, Course r images s (PageReading.read data mime cap s).2 handed dealt ∧
            Settles (fun _ => ¬ s.Steady) r images s dealt (PageReading.read data mime cap s).1) ∧
          ∀ (owner : Nat) (now : Float) (fired waits : Bool) (w : Watch),
            Watch.Reaches waits
                (.begin owner now fired waits (Plan.forDocument s.scratch data mime cap) s) w →
              ∃ m dealt, Course r images s w.site (m - 1) dealt ∧
                (w.worker.stage ≠ .over ∧ w.told = (Progress.paging total total).take m ∨
                  ∃ last, w.worker.stage = .over ∧
                    w.told = (Progress.paging total total).take m ++ [last] ∧
                    Ends w.fired r images s dealt last) := by
  refine ⟨fun folder files => PageReading.images_eq hwidth, ?_, ?_⟩
  · intro cap s u made hrun hlists
    rw [PageReading.render_eq, hrun, Except.map, PageReading.images_eq hwidth hlists]
  intro data mime cap s r images hdata hmime hr himages hlists
  subst hr himages
  have hrenders : Renders s.scratch (capInForce cap)
      (pageImages s.scratch width total) s :=
    fun made hmade => PageReading.images_eq hwidth (hlists made hmade)
  constructor
  · rw [PageReading.read_pdf hdata hmime]
    exact PageReading.course_readPdf hrenders
  intro owner now fired waits w hreaches
  have hplan : Plan.forDocument s.scratch data mime cap =
      .readPdf s.scratch (capInForce cap) := by
    rw [Plan.forDocument, List.isEmpty_eq_false_iff.2 hdata, if_neg Bool.false_ne_true,
      Mime.isImage_eq_false_of_isPdf hmime, if_neg Bool.false_ne_true]
  rw [hplan] at hreaches
  have hobeys := Watch.obeys_begin (Plan.obeys_readPdf s.scratch (capInForce cap))
    owner now fired waits s
  have hturns := Watch.turns_reaches hrenders hobeys
    (Watch.turns_begin hrenders owner now fired waits) hreaches
  have hcases := Stands.cases hturns
  rwa [PageReading.length_pageImages] at hcases

/-- The rasterizer leaves the images of eleven pages and another file, which
are listed in no order. -/
def elevenPages : Script where
  suffixes := ["-10.png", "-02.png", "-11.png", "-07.png", "-01.png", ".log", "-05.png", "-09.png",
    "-03.png", "-08.png", "-06.png", "-04.png"]

/-- A row of a token table that holds a word. -/
def wordRow (word : String) : String := "\t\t1\t1\t1\t\t\t\t\t\t\t" ++ word ++ "\n"

/-- A token table with one word. -/
def tableOf (word : String) : String := "level\n" ++ wordRow word

/-- A site at which eleven pages are rendered.  The first one and the third one
hold a word, and the engine fails on the second one. -/
def elevenSite : Site where
  scratch := "/scratch"
  scripts := [(Tool.rasterizer.name, [elevenPages]),
    (Tool.ocrEngine.name, [{ output := Utf8.encode (tableOf "Hi") }, { status := 1 },
      { output := Utf8.encode (tableOf "Ho") }])]

/-- The request for the images there. -/
def elevenRequest : Request :=
  renderRequest "/scratch" (capInForce 0)

theorem lists_elevenPages : Lists "/scratch" 2 11 (elevenPages.files elevenRequest) := by
  have hfiles : (elevenPages.files elevenRequest).Perm
      (pageImages "/scratch" 2 11 ++ ["/scratch/page.log"]) := by decide +kernel
  exact PageReading.lists_of_perm hfiles (by decide +kernel)

theorem given_elevenSite :
    (elevenSite.takeScript Tool.rasterizer.name).1.given elevenRequest =
      .ok ⟨[], elevenPages.files elevenRequest⟩ := rfl

theorem steady_elevenSite : elevenSite.Steady := by
  refine ⟨rfl, rfl, ?_⟩
  intro p hp script hscript
  have hatOnce : script.ending = .atOnce := by
    rcases List.mem_cons.1 hp with rfl | hp
    · obtain rfl := List.mem_singleton.1 hscript
      rfl
    · obtain rfl := List.mem_singleton.1 hp
      simp only [List.mem_cons, List.not_mem_nil, or_false] at hscript
      rcases hscript with rfl | rfl | rfl
      · rfl
      · rfl
      · rfl
  exact ⟨by rw [hatOnce]; exact Ending.noConfusion, nofun⟩

theorem not_hinders_elevenSite (dealt : Nat) (e : Fault) :
    ¬ Hinders elevenRequest elevenSite dealt e := by
  intro h
  cases h with
  | unrendered h => exact absurd (given_elevenSite.symm.trans h) nofun
  | fatal h =>
    refine absurd h ?_
    have hfatal : (elevenSite.nth Tool.ocrEngine.name dealt).fatal?.isNone = true := by
      match dealt with
      | 0 => decide +kernel
      | 1 => decide +kernel
      | 2 => decide +kernel
      -- behind its scripts the engine does nothing
      | n + 3 => exact (by decide +kernel : (Script.fatal? {}).isNone = true)
    rw [Option.isNone_iff_eq_none.1 hfatal]
    exact nofun

theorem merge_elevenSite :
    Pages.merge (held elevenSite 11) =
      ⟨"Hi\n\nHo", "level\n" ++ wordRow "Hi" ++ wordRow "Ho"⟩ := by
  decide +kernel

theorem skipReports_elevenSite :
    skipReports 11 (elevenSite.starts Tool.ocrEngine.name 11) =
      ["OCR skipped page 2/11: tesseract: exit status 1"] := by
  decide +kernel

/-- The images there are listed in no order.  They are read in page order all
the same. -/
theorem ordered_elevenPages :
    (digits 11).length ≤ 2 ∧
      PageReading.images "/scratch" (elevenPages.files elevenRequest) =
        ["/scratch/page-01.png", "/scratch/page-02.png", "/scratch/page-03.png",
          "/scratch/page-04.png", "/scratch/page-05.png", "/scratch/page-06.png",
          "/scratch/page-07.png", "/scratch/page-08.png", "/scratch/page-09.png",
          "/scratch/page-10.png", "/scratch/page-11.png"] ∧
      (PageReading.render (capInForce 0) elevenSite).1 =
        .ok (pageImages "/scratch" 2 11) ∧
      (PageReading.read [37] "application/pdf" 0 elevenSite).1 =
        .ok ⟨"Hi\n\nHo", "level\n" ++ wordRow "Hi" ++ wordRow "Ho"⟩ ∧
      (PageReading.read [37] "application/pdf" 0 elevenSite).2.started =
        elevenRequest.words :: (pageImages "/scratch" 2 11).map
          (fun image => (readRequest image).words) ∧
      (PageReading.read [37] "application/pdf" 0 elevenSite).2.warnings =
        ["OCR skipped page 2/11: tesseract: exit status 1"] ∧
      ∃ w last, Watch.Reaches true (.begin 1 0 false true
          (Plan.forDocument "/scratch" [37] "application/pdf" 0) elevenSite) w ∧
        w.told = Progress.paging 11 11 ++ [last] ∧ last.text = "Hi\n\nHo" := by
  have hwidth : (digits 11).length ≤ 2 := by decide
  have hdata : ([37] : Utf8.Bytes) ≠ [] := by decide
  have hmime : Mime.isPdf "application/pdf" = true := by decide
  have hpages : pageImages "/scratch" 2 11 ≠ [] := by decide +kernel
  obtain ⟨himages, hrender, hread⟩ := ordered_forDocument hwidth
  have hrun := run_of_steady steady_elevenSite (r := elevenRequest) rfl
  obtain ⟨⟨handed, dealt, hcourse, hsettles⟩, hworker⟩ :=
    hread [37] "application/pdf" 0 elevenSite _ _ hdata hmime rfl rfl fun made hmade => by
      rw [← Except.ok.inj (given_elevenSite.symm.trans hmade)]
      exact lists_elevenPages
  obtain ⟨rfl, houtcome⟩ := hsettles.eq_of_not_hinders
    (fun _ h => h steady_elevenSite) (not_hinders_elevenSite _)
  obtain ⟨rfl, hturned⟩ := hcourse.turned hpages
  refine ⟨hwidth, ?_, ?_, ?_, ?_, ?_, ?_⟩
  · rw [himages _ _ lists_elevenPages]
    decide +kernel
  · have hrendered := hrender (capInForce 0) elevenSite _ _ hrun lists_elevenPages
    rw [hrendered]
    rfl
  · rw [houtcome, PageReading.length_pageImages, merge_elevenSite]
  · rw [hturned.started, Site.started_launched, List.take_length]
    rfl
  · rw [hturned.warnings, Site.warnings_launched, PageReading.length_pageImages, Site.starts,
      PageReading.queue_launched_renderRequest, ← Site.starts, skipReports_elevenSite]
    rfl
  · obtain ⟨q, hruns, hover⟩ := Worker.exists_over
      (Plan.forDocument "/scratch" [37] "application/pdf" 0)
      { owner := 1, stage := .over, since := 0 } elevenSite 0
    have hreaches := Watch.reaches_of_runs (w := .begin 1 0 false true
      (Plan.forDocument "/scratch" [37] "application/pdf" 0) elevenSite) rfl hruns
    obtain ⟨m, dealt, hcourse, ⟨hwaits, -⟩ | ⟨last, -, htold, hends⟩⟩ :=
      hworker 1 0 false true _ hreaches
    · exact absurd hover hwaits
    · obtain ⟨rfl, hcarries⟩ := hends.of_not_hinders (not_hinders_elevenSite _)
      obtain ⟨hm, -⟩ := hcourse.turned hpages
      rw [PageReading.length_pageImages] at hm hcarries
      rw [merge_elevenSite] at hcarries
      refine ⟨_, last, hreaches, ?_, hcarries.1⟩
      rw [htold, show m = 11 + 1 by omega, Progress.take_paging, Nat.min_self]

end Intake
