import Intake.Proofs.Layer.Accord
import Intake.Proofs.Layer.Heeded
import Intake.Proofs.Layer.Spared

/-!
# Turning pages

While a document is read, its page images are handed to the engine one after
the other.  Each of them is dealt with before the next one is handed over: the
page is read, or it is reported as left out.

There are five groups.

* Sites.  `Site.started` and `Site.warnings` are what is seen of a reading, and
  `Site.nth` is what a start of a program will do.
* Turning.  `Turned` says how many images were handed over and how many of them
  were dealt with; one lemma for each thing that can happen to an image.
* Programs.  `Shell.run_cases` says how a program ends that has no time limit.
* Readings.  `Course` and `Settles` say what a reading has come to, and
  `turned_readImages` is the induction over the images.
* Documents.  `course_readPdf` says what becomes of a whole PDF.
-/

namespace Intake

open Text

/-! ## Sites -/

namespace Site

variable {s t u : Site}

/-- The programs that were started, each with its arguments. -/
def started (s : Site) : List (List String) := s.calls.map (·.arguments)

/-- The warnings that were taken. -/
def warnings (s : Site) : List String :=
  (s.book.journal.records.filter fun r => r.level == .warning).map (·.text)

/-- What a program will do when it is started once more than so many times. -/
def nth (s : Site) (program : String) (n : Nat) : Script := (s.queue program)[n]?.getD {}

theorem starts_concat (s : Site) (program : String) (n : Nat) :
    s.starts program (n + 1) = s.starts program n ++ [s.nth program n] := by
  rw [starts, List.range_succ, List.map_append]
  rfl

theorem length_starts (s : Site) (program : String) (n : Nat) :
    (s.starts program n).length = n := by
  rw [starts, List.length_map, List.length_range]

theorem started_launched (s : Site) (r : Request) :
    (s.launched r).started = s.started ++ [r.words] := by
  rw [launched_eq]
  exact List.map_append

theorem warnings_note (s : Site) (source : Source) (level : Level) (text : String) :
    (s.note source level text).warnings =
      s.warnings ++ if level == .warning then [text] else [] := by
  show ((s.book.journal.records ++ [(⟨source, level, text⟩ : Record)]).filter _).map _ = _
  rw [List.filter_append, List.map_append, List.filter_singleton]
  cases level <;> rfl

theorem warnings_launched (s : Site) (r : Request) : (s.launched r).warnings = s.warnings := by
  have hnote := s.warnings_note .program .debug ("exec: " ++ " ".intercalate r.words)
  rw [launched_eq]
  exact hnote.trans (List.append_nil _)

theorem queue_launched_of_ne {program : String} {r : Request} (h : program ≠ r.program) :
    (s.launched r).queue program = s.queue program := by
  have hlookup := lookup_takeScript r.program program s.scripts
  rw [queue, launched_eq]
  show ((s.takeScript r.program).2.scripts.lookup program).getD [] = _
  rw [takeScript, hlookup, beq_false_of_ne h, queue]
  cases s.scripts.lookup program <;> rfl

/-- Two sites that agree on the programs that were started, on what the next
ones will do, and on the warnings. -/
structure Abreast (t u : Site) : Prop where
  scripts : u.scripts = t.scripts
  started : u.started = t.started
  warnings : u.warnings = t.warnings

theorem abreast_rfl : t.Abreast t := ⟨rfl, rfl, rfl⟩

theorem abreast_fire (t : Site) (fires : Bool) : t.Abreast (t.fire fires) := ⟨rfl, rfl, rfl⟩

theorem abreast_note (t : Site) (source : Source) {level : Level} (hlevel : level ≠ .warning)
    (text : String) : t.Abreast (t.note source level text) := by
  refine ⟨rfl, rfl, ?_⟩
  rw [warnings_note, beq_false_of_ne hlevel]
  exact List.append_nil _

/-- Stopping a program does not change with which arguments it was started. -/
theorem abreast_stopCall (t : Site) (call : Nat) : t.Abreast (t.stopCall call) := by
  refine ⟨rfl, ?_, rfl⟩
  show (t.calls.modify call _).map _ = t.calls.map _
  refine List.ext_getElem? fun i => ?_
  rw [List.getElem?_map, List.getElem?_map, List.getElem?_modify]
  cases t.calls[i]? with
  | none => rfl
  | some c =>
    by_cases hcall : call = i
    · simp [hcall]
    · simp [hcall]

theorem Abreast.trans (h : t.Abreast u) {v : Site} (h' : u.Abreast v) : t.Abreast v :=
  ⟨h'.scripts.trans h.scripts, h'.started.trans h.started, h'.warnings.trans h.warnings⟩

end Site

/-! ## Turning -/

namespace PageReading

/-- What is reported of a page: that it was left out, if the engine did not
read it. -/
def skipReport (total page : Nat) (script : Script) : Option String :=
  match pageGiven script with
  | .ok _ => none
  | .error e => some (skipText page total e)

/-- What is reported of the first pages, in their order. -/
def skipReports (total : Nat) (scripts : List Script) : List String :=
  (scripts.zipIdx 1).filterMap fun p => skipReport total p.2 p.1

theorem skipReports_concat (total : Nat) (scripts : List Script) (script : Script) :
    skipReports total (scripts ++ [script]) =
      skipReports total scripts ++ (skipReport total (scripts.length + 1) script).toList := by
  rw [skipReports, List.zipIdx_append, List.filterMap_append, skipReports, List.zipIdx_singleton,
    Nat.add_comm, List.filterMap_cons]
  cases skipReport total (scripts.length + 1) script <;> rfl

theorem skipReports_starts (total : Nat) (s : Site) (n : Nat) :
    skipReports total (s.starts Tool.ocrEngine.name (n + 1)) =
      skipReports total (s.starts Tool.ocrEngine.name n) ++
        (skipReport total (n + 1) (s.nth Tool.ocrEngine.name n)).toList := by
  rw [Site.starts_concat, skipReports_concat, Site.length_starts]

/-- The pages that the first starts of the engine give. -/
def held (s : Site) (n : Nat) : List Page :=
  (s.starts Tool.ocrEngine.name n).filterMap Script.page?

end PageReading

open PageReading

/-- Since a site was left, so many of the images were handed to the engine in
their order, and so many of them were dealt with: all, or all but the last one.
Whatever page the engine did not read was reported under its number. -/
structure Turned (images : List String) (s t : Site) (handed dealt : Nat) : Prop where
  dealt_le : dealt ≤ handed
  le_dealt : handed ≤ dealt + 1
  handed_le : handed ≤ images.length
  started : t.started = s.started ++ (images.take handed).map fun image => (readRequest image).words
  warnings : t.warnings =
    s.warnings ++ skipReports images.length (s.starts Tool.ocrEngine.name dealt)
  spared : ∀ script ∈ s.starts Tool.ocrEngine.name dealt, script.fatal? = none
  queue : t.queue Tool.ocrEngine.name = (s.queue Tool.ocrEngine.name).drop handed

namespace Turned

variable {images : List String} {s t u : Site} {handed dealt k : Nat} {image : String}

theorem start (images : List String) (s : Site) : Turned images s s 0 0 where
  dealt_le := Nat.le_refl 0
  le_dealt := Nat.zero_le _
  handed_le := Nat.zero_le _
  started := by rw [List.take_zero, List.map_nil, List.append_nil]
  warnings := (List.append_nil _).symm
  spared := fun _ hscript => absurd hscript List.not_mem_nil
  queue := List.drop_zero.symm

theorem congr (h : Turned images s t handed dealt) (hu : t.Abreast u) :
    Turned images s u handed dealt where
  dealt_le := h.dealt_le
  le_dealt := h.le_dealt
  handed_le := h.handed_le
  started := hu.started.trans h.started
  warnings := hu.warnings.trans h.warnings
  spared := h.spared
  queue := by rw [← h.queue, Site.queue, Site.queue, hu.scripts]

/-- The engine does next what it was to do behind the images handed over. -/
theorem takeScript_eq (h : Turned images s t handed dealt) :
    (t.takeScript Tool.ocrEngine.name).1 = s.nth Tool.ocrEngine.name handed := by
  rw [Site.takeScript_eq_head, h.queue, List.getElem?_drop, Nat.add_zero, Site.nth]

/-- The next image is handed over. -/
theorem handOn (h : Turned images s t k k) (himage : images[k]? = some image) :
    Turned images s (t.launched (readRequest image)) (k + 1) k where
  dealt_le := Nat.le_succ k
  le_dealt := Nat.le_refl _
  handed_le := (List.getElem?_eq_some_iff.1 himage).1
  started := by
    rw [Site.started_launched, h.started, List.take_add_one, himage, List.map_append,
      List.append_assoc]
    rfl
  warnings := (Site.warnings_launched t _).trans h.warnings
  spared := h.spared
  queue := by
    have hprogram : (readRequest image).program = Tool.ocrEngine.name := rfl
    rw [Site.queue_launched hprogram, h.queue, List.tail_drop]

theorem concat_spared (h : Turned images s t handed k)
    (hfatal : (s.nth Tool.ocrEngine.name k).fatal? = none) :
    ∀ script ∈ s.starts Tool.ocrEngine.name (k + 1), script.fatal? = none := by
  intro script hscript
  rw [Site.starts_concat] at hscript
  rcases List.mem_append.1 hscript with hscript | hscript
  · exact h.spared script hscript
  · rw [List.mem_singleton.1 hscript]
    exact hfatal

/-- The image that was handed over is read. -/
theorem read (h : Turned images s t (k + 1) k) {page : Page}
    (hgiven : pageGiven (s.nth Tool.ocrEngine.name k) = .ok page)
    (hfatal : (s.nth Tool.ocrEngine.name k).fatal? = none) :
    Turned images s t (k + 1) (k + 1) where
  dealt_le := Nat.le_refl _
  le_dealt := Nat.le_succ _
  handed_le := h.handed_le
  started := h.started
  warnings := by
    rw [skipReports_starts, skipReport, hgiven, Option.toList_none, List.append_nil, h.warnings]
  spared := h.concat_spared hfatal
  queue := h.queue

/-- The image that was handed over is left out, which is reported. -/
theorem skip (h : Turned images s t (k + 1) k) {e : Fault}
    (hgiven : pageGiven (s.nth Tool.ocrEngine.name k) = .error e)
    (hfatal : (s.nth Tool.ocrEngine.name k).fatal? = none) (source : Source) :
    Turned images s (t.note source .warning (skipText (k + 1) images.length e)) (k + 1)
      (k + 1) where
  dealt_le := Nat.le_refl _
  le_dealt := Nat.le_succ _
  handed_le := h.handed_le
  started := h.started
  warnings := by
    rw [Site.warnings_note, h.warnings, skipReports_starts, skipReport, hgiven, List.append_assoc]
    rfl
  spared := h.concat_spared hfatal
  queue := h.queue

end Turned

namespace PageReading

variable {s : Site} {k : Nat}

theorem held_concat_of_some {page : Page}
    (h : (s.nth Tool.ocrEngine.name k).page? = some page) :
    held s (k + 1) = held s k ++ [page] := by
  rw [held, Site.starts_concat, List.filterMap_append, List.filterMap_cons_some h]
  rfl

theorem held_concat_of_none (h : (s.nth Tool.ocrEngine.name k).page? = none) :
    held s (k + 1) = held s k := by
  rw [held, Site.starts_concat, List.filterMap_append, List.filterMap_cons_none h]
  exact List.append_nil _

end PageReading

/-! ## Programs -/

namespace Shell

variable {r : Request} {s : Site}

/-- A program without a time limit ends as its script says, unless the wait for
it is given up; that happens at no steady site. -/
theorem run_cases (hr : r.limit = none) (h : s.fired = false) :
    ∃ u, (s.launched r).Abreast u ∧ (s.Steady → u.Steady) ∧
      (run r s = ((s.takeScript r.program).1.given r, u) ∨
        ∃ e, e.isTool = false ∧ ¬ s.Steady ∧ run r s = (.error e, u)) := by
  by_cases hsteady : s.Steady
  · exact ⟨s.launched r, Site.abreast_rfl, fun h => h.launched r,
      Or.inl (run_of_steady hsteady hr)⟩
  have hrestless : ∀ {u : Site}, s.Steady → u.Steady := fun h => absurd h hsteady
  have hstopped : ∀ fires, (s.launched r).Abreast ((s.launched r).fire fires).stopLatest :=
    fun fires => (Site.abreast_fire _ fires).trans (Site.abreast_stopCall _ _)
  rw [run_of_unfired h, Script.given]
  cases (s.takeScript r.program).1.startFault with
  | some e => exact ⟨s.launched r, Site.abreast_rfl, hrestless, Or.inl rfl⟩
  | none =>
    dsimp only
    rw [await_eq]
    cases hcourse : courseOf (s.launched r) r (s.takeScript r.program).1 with
    | ended => exact ⟨_, Site.abreast_fire _ _, hrestless, Or.inl rfl⟩
    | cancelled => exact ⟨_, hstopped _, hrestless, Or.inr ⟨_, rfl, hsteady, rfl⟩⟩
    | waiting => exact ⟨_, hstopped _, hrestless, Or.inr ⟨_, rfl, hsteady, rfl⟩⟩
    | timedOut =>
      have houtcome : (s.takeScript r.program).1.outcome none (s.launched r).signal.isSome =
          .timedOut := by
        rw [courseOf, hr] at hcourse
        split at hcourse
        · cases hcourse
        · cases hcourse
        · exact hcourse
      exact absurd (Script.race_of_outcome houtcome Outcome.noConfusion) (race_ne_timedOut _ _)

end Shell

/-! ## Readings -/

/-- What has become of a site while a document was read whose pages are
rendered as these images: the rasterizer was not started, or it was, and so
many images were handed to the engine and dealt with. -/
inductive Course (r : Request) (images : List String) (s t : Site) : Nat → Nat → Prop where
  | unopened (hstarted : t.started = s.started) (hwarnings : t.warnings = s.warnings) :
      Course r images s t 0 0
  | opened {handed dealt : Nat} (h : Turned images (s.launched r) t handed dealt) :
      Course r images s t handed dealt

/-- A fault that ends the reading of a document once so many pages were dealt
with: that of the rasterizer, or that for which the engine gives up the next
page and all others. -/
inductive Hinders (r : Request) (s : Site) (dealt : Nat) (e : Fault) : Prop where
  | unrendered (h : (s.takeScript r.program).1.given r = .error e)
  | fatal (h : (s.nth Tool.ocrEngine.name dealt).fatal? = some e)

/-- What a reading comes to that has dealt with so many pages.  It has dealt
with all of them and gives those that were read, merged in page order, or
something hindered it or is an excuse. -/
def Settles (excuse : Fault → Prop) (r : Request) (images : List String) (s : Site) (dealt : Nat) :
    Except Fault Page → Prop
  | .ok page => dealt = images.length ∧ page = Pages.merge (held s images.length)
  | .error e => excuse e ∨ Hinders r s dealt e

/-- A reading that nothing hinders deals with all pages. -/
theorem Settles.eq_of_not_hinders {excuse : Fault → Prop} {r : Request} {images : List String}
    {s : Site} {dealt : Nat} {outcome : Except Fault Page}
    (h : Settles excuse r images s dealt outcome) (hexcuse : ∀ e, ¬ excuse e)
    (hhinders : ∀ e, ¬ Hinders r s dealt e) :
    dealt = images.length ∧ outcome = .ok (Pages.merge (held s images.length)) := by
  cases outcome with
  | ok page => exact ⟨h.1, congrArg Except.ok h.2⟩
  | error e => exact absurd h (not_or.2 ⟨hexcuse e, hhinders e⟩)

/-- All images were handed over to deal with all pages. -/
theorem Course.turned {r : Request} {images : List String} {s t : Site} {handed : Nat}
    (h : Course r images s t handed images.length) (hne : images ≠ []) :
    handed = images.length ∧ Turned images (s.launched r) t images.length images.length := by
  generalize hdealt : images.length = dealt at h
  cases h with
  | unopened => exact absurd (List.length_eq_zero_iff.1 hdealt) hne
  | opened h =>
    have hhanded : handed = dealt := Nat.le_antisymm (hdealt ▸ h.handed_le) h.dealt_le
    exact ⟨hhanded, hhanded ▸ h⟩

namespace PageReading

variable {excuse : Prop} {images : List String} {s t : Site} {k : Nat} {image : String}

/-- What the reading of the images behind the first ones comes to. -/
def SettlesFrom (excuse : Prop) (images : List String) (s : Site) (k dealt : Nat) :
    Except Fault (List Page) → Prop
  | .ok pages => dealt = images.length ∧ held s k ++ pages = held s images.length
  | .error e => excuse ∨ (s.nth Tool.ocrEngine.name dealt).fatal? = some e

theorem SettlesFrom.map {dealt : Nat} {later : Except Fault (List Page)} {read : List Page}
    (h : SettlesFrom excuse images s (k + 1) dealt later)
    (hread : held s (k + 1) = held s k ++ read) :
    SettlesFrom excuse images s k dealt (later.map (read ++ ·)) := by
  cases later with
  | error e => exact h
  | ok pages =>
    obtain ⟨hdealt, hpages⟩ := h
    refine ⟨hdealt, ?_⟩
    rw [← List.append_assoc, ← hread, hpages]

theorem getElem?_of_drop_eq_cons {rest : List String} (h : images.drop k = image :: rest) :
    images[k]? = some image ∧ images.drop (k + 1) = rest := by
  constructor
  · rw [← List.head?_drop, h, List.head?_cons]
  · rw [← List.tail_drop, h, List.tail_cons]

/-- The engine is handed an image and deals with it, or the wait for it is
given up. -/
theorem readImage_cases (h : Turned images s t k k) (himage : images[k]? = some image)
    (hfired : t.fired = false) :
    ∃ u, Turned images s u (k + 1) k ∧ (t.Steady → u.Steady) ∧
      (readImage image t = (pageGiven (s.nth Tool.ocrEngine.name k), u) ∨
        ∃ e, e.isTool = false ∧ ¬ t.Steady ∧ readImage image t = (.error e, u)) := by
  have hlimit : (readRequest image).limit = none := rfl
  have hscript : (t.takeScript (readRequest image).program).1 = s.nth Tool.ocrEngine.name k :=
    h.takeScript_eq
  obtain ⟨u, hu, husteady, hrun⟩ := Shell.run_cases hlimit hfired
  refine ⟨u, (h.handOn himage).congr hu, husteady, ?_⟩
  rw [readImage_eq]
  rcases hrun with hgiven | ⟨e, htool, hrestless, hstopped⟩
  · rw [hgiven, hscript, bind_given_readRequest]
    exact Or.inl rfl
  · rw [hstopped]
    exact Or.inr ⟨e, htool, hrestless, rfl⟩

/-- From any image on, the images are handed over and dealt with in their order.
The induction is on the images that are left. -/
theorem turned_readImages (rest : List String) : ∀ {k : Nat} {t : Site}, images.drop k = rest →
    Turned images s t k k → (t.Steady ∨ excuse) →
      ∃ handed dealt,
        Turned images s (readImages images.length (k + 1) rest t).2 handed dealt ∧
        SettlesFrom excuse images s k dealt (readImages images.length (k + 1) rest t).1 := by
  induction rest with
  | nil =>
    intro k t hrest h _
    have hk : k = images.length := Nat.le_antisymm h.handed_le (List.drop_eq_nil_iff.1 hrest)
    exact ⟨k, k, h, hk, by rw [List.append_nil, hk]⟩
  | cons image rest ih =>
    intro k t hrest h hsteady
    obtain ⟨himage, hlater⟩ := getElem?_of_drop_eq_cons hrest
    cases hfired : t.fired with
    | true =>
      rw [readImages_cons_of_fired _ _ _ _ hfired]
      refine ⟨k, k, h, Or.inl (hsteady.resolve_left fun hs => ?_)⟩
      exact absurd (hfired.symm.trans hs.unfired) Bool.false_ne_true.symm
    | false =>
      obtain ⟨u, hu, husteady, hgiven | ⟨e, htool, hrestless, hstopped⟩⟩ :=
        readImage_cases h himage hfired
      · -- the page is read, all pages are given up for it, or it is left out
        rcases pageGiven_cases (s.nth Tool.ocrEngine.name k) with
          ⟨page, hpage, hsome, hfatal⟩ | ⟨e, hpage, htool, hfatal⟩ |
          ⟨e, hpage, htool, hnone, hfatal⟩
        · rw [hpage] at hgiven
          rw [readImages_cons_of_ok _ _ _ hfired (readOrSkip_ok _ _ _ hgiven)]
          obtain ⟨handed, dealt, hturned, hsettles⟩ :=
            ih hlater (hu.read hpage hfatal) (hsteady.imp_left husteady)
          exact ⟨handed, dealt, hturned, hsettles.map (held_concat_of_some hsome)⟩
        · rw [hpage] at hgiven
          rw [readImages_cons_of_error _ _ _ hfired (readOrSkip_not_tool _ _ _ hgiven htool)]
          exact ⟨k + 1, k, hu, Or.inr hfatal⟩
        · rw [hpage] at hgiven
          rw [readImages_cons_of_ok _ _ _ hfired (readOrSkip_tool _ _ _ hgiven htool)]
          obtain ⟨handed, dealt, hturned, hsettles⟩ :=
            ih hlater (hu.skip hpage hfatal .pages)
              (hsteady.imp_left fun hs => (husteady hs).congr rfl rfl rfl)
          refine ⟨handed, dealt, hturned, hsettles.map ?_⟩
          rw [held_concat_of_none hnone, Option.toList_none, List.append_nil]
      · rw [readImages_cons_of_error _ _ _ hfired (readOrSkip_not_tool _ _ _ hstopped htool)]
        exact ⟨k + 1, k, hu, Or.inl (hsteady.resolve_left hrestless)⟩

/-! ## Documents -/

/-- The rasterizer's start leaves what the engine will do. -/
theorem queue_launched_renderRequest (s : Site) (folder : String) (cap : Int) :
    (s.launched (renderRequest folder cap)).queue Tool.ocrEngine.name =
      s.queue Tool.ocrEngine.name := by
  refine Site.queue_launched_of_ne ?_
  show Tool.ocrEngine.name ≠ Tool.rasterizer.name
  decide

theorem nth_launched_renderRequest (s : Site) (folder : String) (cap : Int) (n : Nat) :
    (s.launched (renderRequest folder cap)).nth Tool.ocrEngine.name n =
      s.nth Tool.ocrEngine.name n := by
  rw [Site.nth, queue_launched_renderRequest, Site.nth]

theorem held_launched_renderRequest (s : Site) (folder : String) (cap : Int) (n : Nat) :
    held (s.launched (renderRequest folder cap)) n = held s n := by
  rw [held, Site.starts, queue_launched_renderRequest, held, Site.starts]

/-- What the pages come to is what the document comes to. -/
theorem SettlesFrom.settles {folder : String} {cap : Int} {dealt : Nat}
    {outcome : Except Fault (List Page)}
    (h : SettlesFrom excuse images (s.launched (renderRequest folder cap)) 0 dealt outcome) :
    Settles (fun _ => excuse) (renderRequest folder cap) images s dealt
      (outcome.map Pages.merge) := by
  cases outcome with
  | error e =>
    refine h.imp_right fun hfatal => .fatal ?_
    rwa [nth_launched_renderRequest] at hfatal
  | ok pages =>
    obtain ⟨hdealt, hpages⟩ := h
    refine ⟨hdealt, congrArg Pages.merge ?_⟩
    rw [← held_launched_renderRequest s folder cap, ← hpages]
    rfl

theorem render_eq (cap : Int) (s : Site) :
    render cap s =
      ((Shell.run (renderRequest s.scratch cap) s).1.map fun made => PageReading.images s.scratch
        made.files, (Shell.run (renderRequest s.scratch cap) s).2) := by
  have hget : (get : Shell Site) s = (.ok s, s) := rfl
  rw [render, Shell.bind_of_ok hget, Shell.bind_pure_eq]

/-- The rasterizer leaves these images in page order, unless it fails. -/
def Renders (folder : String) (cap : Int) (images : List String) (s : Site) : Prop :=
  ∀ made, (s.takeScript Tool.rasterizer.name).1.given (renderRequest folder cap) = .ok made →
    PageReading.images folder made.files = images

theorem merge_nil : Pages.merge [] = {} := by decide +kernel

/-- A PDF is read page by page, at any site. -/
theorem course_readPdf {cap : Int} {s : Site} (himages : Renders s.scratch cap images s) :
    ∃ handed dealt,
      Course (renderRequest s.scratch cap) images s (readPdf cap s).2 handed dealt ∧
      Settles (fun _ => ¬ s.Steady) (renderRequest s.scratch cap) images s dealt
        (readPdf cap s).1 := by
  have hlimit : (renderRequest s.scratch cap).limit = none := rfl
  have hrender := render_eq cap s
  rw [readPdf]
  cases hfired : s.fired with
  | true =>
    rw [Shell.run_of_fired _ (eq_of_beq hfired)] at hrender
    rw [Shell.bind_of_error hrender]
    refine ⟨0, 0, .unopened rfl rfl, Or.inl fun hs => ?_⟩
    exact absurd (hfired.symm.trans hs.unfired) Bool.false_ne_true.symm
  | false =>
    obtain ⟨u, hu, husteady, hgiven | ⟨e, -, hrestless, hstopped⟩⟩ :=
      Shell.run_cases hlimit hfired
    · have hturned := (Turned.start images (s.launched (renderRequest s.scratch cap))).congr hu
      rw [hgiven] at hrender
      cases hscript : (s.takeScript (renderRequest s.scratch cap).program).1.given
        (renderRequest s.scratch cap) with
      | error e =>
        rw [hscript] at hrender
        rw [Shell.bind_of_error hrender]
        exact ⟨0, 0, .opened hturned, Or.inr (.unrendered hscript)⟩
      | ok made =>
        have hfound := himages made hscript
        rw [hscript, Except.map, hfound] at hrender
        rw [Shell.bind_of_ok hrender]
        cases images with
        | nil => exact ⟨0, 0, .opened hturned, rfl, merge_nil.symm⟩
        | cons image rest =>
          obtain ⟨handed, dealt, hread, hsettles⟩ :=
            turned_readImages (image :: rest) List.drop_zero hturned
              ((em s.Steady).imp_left husteady)
          rw [List.isEmpty_cons, if_neg Bool.false_ne_true, Shell.bind_pure_eq]
          exact ⟨handed, dealt, .opened hread, hsettles.settles⟩
    · rw [hstopped] at hrender
      rw [Shell.bind_of_error hrender]
      exact ⟨0, 0, .opened ((Turned.start _ _).congr hu), Or.inl hrestless⟩

end PageReading

end Intake
