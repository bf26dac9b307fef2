import Intake.Layer.Worker
import Intake.Proofs.Program.Steady
import Mathlib.Data.String.Basic
import Mathlib.Logic.Relation

/-!
# Two ways of reading pages

`PageReading.read` reads a document to its end, and `Plan.forDocument` is
the plan of a worker that tells how far it is.  At steady sites the two run
the same programs, and the worker's last event carries what the reading
gives.

There are five groups.

* Folders.  `images_map` says that page images are found in the same order in
  every folder.
* Outcomes.  `Progress.Closes` says that events end with an outcome, and
  `Agrees` that a worker has come to what a reading came to.
* Programs.  What the requests of both come to.
* Agreement.  `agrees_complete` compares the reading with the plan carried
  out at once; `agrees_readImages` is the induction over the pages.
* Workers.  `complete_of_advance` splits a plan at the place where a worker
  waits, `Worker.Promises` is the invariant of a worker that goes on whenever
  its program has ended, and `agrees_forDocument` is the result.
-/

namespace Intake

open Text

/-! ## Folders -/

namespace PageReading

theorem append_le_append_left_iff (folder a b : List Char) :
    folder ++ a ≤ folder ++ b ↔ a ≤ b := by
  induction folder with
  | nil => exact Iff.rfl
  | cons c rest ih =>
    rw [← ih, ← not_lt, ← not_lt]
    simp

theorem isPrefixOf_append_left (folder a b : List Char) :
    (folder ++ a).isPrefixOf (folder ++ b) = a.isPrefixOf b := by
  induction folder with
  | nil => rfl
  | cons c rest ih => rw [List.cons_append, List.cons_append, List.isPrefixOf_cons_cons_self, ih]

theorem eraseDups_map {α β : Type} [BEq α] [LawfulBEq α] [BEq β] [LawfulBEq β] {f : α → β}
    (hf : Function.Injective f) : ∀ items : List α, (items.map f).eraseDups = items.eraseDups.map f
  | [] => rfl
  | a :: rest => by
    have hkept : ((rest.map f).filter fun b => !b == f a) =
        (rest.filter fun b => !b == a).map f := by
      rw [List.filter_map]
      congr 1
      refine List.filter_congr fun b _ => ?_
      simp [hf.eq_iff]
    rw [List.map_cons, List.eraseDups_cons, List.eraseDups_cons, List.map_cons, hkept,
      eraseDups_map hf (rest.filter fun b => !b == a)]
termination_by items => items.length
decreasing_by exact Nat.lt_succ_of_le (List.length_filter_le _ _)

theorem isPageImage_append (folder path : String) :
    isPageImage folder (folder ++ path) = isPageImage "" path := by
  simp only [isPageImage, String.toList_append, List.length_append, isPrefixOf_append_left,
    List.drop_length_add_append]
  simp

/-- The images of pages are the same in every folder, and so is their
order. -/
theorem images_map (folder : String) (paths : List String) :
    images folder (paths.map (folder ++ ·)) = (images "" paths).map (folder ++ ·) := by
  have hinjective : Function.Injective (folder ++ ·) := fun a b h => by simpa using h
  have hfilter : (paths.map (folder ++ ·)).filter (isPageImage folder) =
      (paths.filter (isPageImage "")).map (folder ++ ·) := by
    rw [List.filter_map]
    congr 1
    exact List.filter_congr fun path _ => isPageImage_append folder path
  rw [images, images, hfilter, eraseDups_map hinjective]
  refine (List.map_mergeSort fun a _ b _ => ?_).symm
  rw [decide_eq_decide, String.le_iff_toList_le, String.le_iff_toList_le, String.toList_append,
    String.toList_append, append_le_append_left_iff]

end PageReading

/-! ## Outcomes -/

namespace Progress

/-- An event carries what a reading gave: the page, or the fault and nothing
else. -/
def Carries (p : Progress) : Except Fault Page → Prop
  | .ok page => p.text = page.text ∧ p.table = page.table ∧ p.fault = none
  | .error e => p.text = "" ∧ p.table = "" ∧ p.fault = some e

/-- Only the last of these events is a last event, and it carries what a
reading gave. -/
def Closes (events : List Progress) (outcome : Except Fault Page) : Prop :=
  ∃ earlier last, events = earlier ++ [last] ∧ (∀ p ∈ earlier, p.done = false) ∧
    last.done = true ∧ last.Carries outcome

theorem closes_result (page : Page) : Closes [.result page] (.ok page) :=
  ⟨[], _, rfl, nofun, rfl, rfl, rfl, rfl⟩

theorem closes_failed (e : Fault) : Closes [.failed e] (.error e) :=
  ⟨[], _, rfl, nofun, rfl, rfl, rfl, rfl⟩

theorem Closes.cons {events : List Progress} {outcome : Except Fault Page}
    (h : Closes events outcome) {p : Progress} (hp : p.done = false) :
    Closes (p :: events) outcome := by
  obtain ⟨earlier, last, rfl, hearlier, hlast⟩ := h
  refine ⟨p :: earlier, last, rfl, ?_, hlast⟩
  intro q hq
  rcases List.mem_cons.1 hq with rfl | hq
  · exact hp
  · exact hearlier q hq

end Progress

/-- The events and the site that a worker has come to agree with what a
reading has come to: the last event carries the outcome, and the sites are
in step. -/
structure Agrees (read : Except Fault Page × Site) (worked : List Progress × Site) : Prop where
  closes : Progress.Closes worked.1 read.1
  inStep : read.2.InStep worked.2

/-! ## Programs -/

namespace PageReading

variable {s : Site}

/-- What reading an image comes to.  It does not matter where the image
is. -/
def pageGiven (script : Script) : Except Fault Page :=
  (script.given (readRequest "")).bind fun made => pageOf made.output

theorem bind_given_readRequest (script : Script) (image : String) :
    ((script.given (readRequest image)).bind fun made => pageOf made.output) =
      pageGiven script := by
  rw [pageGiven, Script.given, Script.given]
  cases script.startFault with
  | some e => rfl
  | none =>
    simp only [Script.result]
    split_ifs
    · rfl
    · rfl

/-- The script of the next image. -/
def nextScript (s : Site) : Script := (s.takeScript Tool.ocrEngine.name).1

/-- What reading an image comes to is decided by its one program. -/
theorem readImage_eq (image : String) (s : Site) :
    readImage image s =
      ((Shell.run (readRequest image) s).1.bind fun made => pageOf made.output,
        (Shell.run (readRequest image) s).2) := by
  rcases hrun : Shell.run (readRequest image) s with ⟨ended, u⟩
  cases ended with
  | error e => exact Shell.bind_of_error hrun
  | ok made =>
    refine (Shell.bind_of_ok hrun).trans ?_
    show readImage.liftExcept (pageOf made.output) u = (pageOf made.output, u)
    cases pageOf made.output with
    | ok page => rfl
    | error e => rfl

theorem readImage_of_steady (h : s.Steady) (image : String) :
    readImage image s = (pageGiven (nextScript s), s.launched (readRequest image)) := by
  have hrun := run_of_steady h (r := readRequest image) rfl
  rw [readImage_eq, hrun, ← bind_given_readRequest _ image, nextScript]
  rfl

section Pages

variable (page total : Nat) (image : String)

theorem readOrSkip_ok {p : Page} {u : Site} (hread : readImage image s = (.ok p, u)) :
    readOrSkip page total image s = (.ok (some p), u) :=
  Shell.tryCatch_of_ok (Shell.map_of_ok hread)

theorem readOrSkip_tool {e : Fault} {u : Site} (hread : readImage image s = (.error e, u))
    (he : e.isTool = true) :
    readOrSkip page total image s =
      (.ok none, u.note .pages .warning (skipText page total e)) := by
  rw [readOrSkip, Shell.tryCatch_of_error (Shell.map_of_error hread), if_pos he]
  exact Shell.bind_of_ok rfl

theorem readOrSkip_not_tool {e : Fault} {u : Site} (hread : readImage image s = (.error e, u))
    (he : e.isTool = false) : readOrSkip page total image s = (.error e, u) := by
  rw [readOrSkip, Shell.tryCatch_of_error (Shell.map_of_error hread),
    if_neg (by rw [he]; exact Bool.false_ne_true)]
  rfl

theorem readImages_cons_of_ok (h : s.fired = false) {rest : List String} {read : Option Page}
    {u : Site} (hread : readOrSkip page total image s = (.ok read, u)) :
    readImages total page (image :: rest) s =
      ((readImages total (page + 1) rest u).1.map (read.toList ++ ·),
        (readImages total (page + 1) rest u).2) := by
  rw [readImages, Shell.bind_of_ok (Shell.check_of_unfired h), Shell.bind_of_ok hread]
  exact Shell.bind_pure_eq _ _ u

theorem readImages_cons_of_error (h : s.fired = false) {rest : List String} {e : Fault} {u : Site}
    (hread : readOrSkip page total image s = (.error e, u)) :
    readImages total page (image :: rest) s = (.error e, u) := by
  rw [readImages, Shell.bind_of_ok (Shell.check_of_unfired h), Shell.bind_of_error hread]

variable (h : s.Steady)
include h

theorem readOrSkip_of_ok {p : Page} (hpage : pageGiven (nextScript s) = .ok p) :
    readOrSkip page total image s = (.ok (some p), s.launched (readRequest image)) := by
  have hread := readImage_of_steady h image
  rw [hpage] at hread
  exact readOrSkip_ok page total image hread

theorem readOrSkip_of_tool {e : Fault} (hpage : pageGiven (nextScript s) = .error e)
    (he : e.isTool = true) :
    readOrSkip page total image s = (.ok none,
      (s.launched (readRequest image)).note .pages .warning (skipText page total e)) := by
  have hread := readImage_of_steady h image
  rw [hpage] at hread
  exact readOrSkip_tool page total image hread he

theorem readOrSkip_of_not_tool {e : Fault} (hpage : pageGiven (nextScript s) = .error e)
    (he : e.isTool = false) :
    readOrSkip page total image s = (.error e, s.launched (readRequest image)) := by
  have hread := readImage_of_steady h image
  rw [hpage] at hread
  exact readOrSkip_not_tool page total image hread he

end Pages

/-- Rendering a document fails everywhere, or it gives the same images in
every folder. -/
theorem given_renderRequest (script : Script) (cap : Int) :
    (∃ e, ∀ folder, script.given (renderRequest folder cap) = .error e) ∨
      ∃ paths : List String, ∀ folder, ∃ made, script.given (renderRequest folder cap) = .ok made ∧
        images folder made.files = paths.map (folder ++ ·) := by
  cases hfault : script.startFault with
  | some e => exact Or.inl ⟨e, fun folder => by rw [Script.given, hfault]⟩
  | none =>
    by_cases hstatus : script.status = 0
    · right
      refine ⟨images "" ((script.suffixes ++ (List.range
        (script.pagesRendered (renderRequest "" cap))).map fun i => pageSuffix (i + 1)).map
          ("/page" ++ ·)), fun folder => ?_⟩
      refine ⟨⟨script.output, script.files (renderRequest folder cap)⟩, ?_, ?_⟩
      · rw [Script.given, hfault]
        exact if_pos hstatus
      · rw [← images_map, List.map_map]
        congr 1
        refine List.map_congr_left fun suffix _ => ?_
        exact String.append_assoc
    · left
      refine ⟨FailureKind.fault .rasterize
        (.of Tool.rasterizer.name (Utf8.decodeString script.report) (some script.status)), ?_⟩
      intro folder
      rw [Script.given, hfault]
      exact if_neg hstatus

theorem render_of_steady (h : s.Steady) (cap : Int) :
    render cap s =
      (((s.takeScript Tool.rasterizer.name).1.given (renderRequest s.scratch cap)).map
          fun made => images s.scratch made.files,
        s.launched (renderRequest s.scratch cap)) := by
  have hget : (get : Shell Site) s = (.ok s, s) := rfl
  have hrun := run_of_steady h (r := renderRequest s.scratch cap) rfl
  rw [render, Shell.bind_of_ok hget, Shell.bind_pure_eq, hrun]
  rfl

theorem program_readRequest_ne (image : String) :
    (readRequest image).program ≠ Tool.textExtractor.name := by
  show Tool.ocrEngine.name ≠ Tool.textExtractor.name
  decide

theorem program_renderRequest_ne (folder : String) (cap : Int) :
    (renderRequest folder cap).program ≠ Tool.textExtractor.name := by
  show Tool.rasterizer.name ≠ Tool.textExtractor.name
  decide

theorem matches_readRequest (here there path : String) :
    (readRequest (here ++ path)).Matches here there (readRequest (there ++ path)) :=
  ⟨rfl, .cons (.path path) (.cons (.word _) (.cons (.word _) .nil)), rfl, rfl⟩

theorem matches_renderRequest (here there : String) (cap : Int) :
    (renderRequest here cap).Matches here there (renderRequest there cap) := by
  refine ⟨rfl, ?_, rfl, rfl⟩
  refine .cons (.word _) (.cons (.word _) (.cons (.word _) (.cons (.word _) (.cons (.word _) ?_))))
  exact .cons (.path _) (.cons (.path _) .nil)

end PageReading

/-! ## Agreement -/

namespace Plan

variable {s t : Site}

theorem complete_emit (h : t.fired = false) (p : Progress) (next : Plan) :
    (emit p next).complete t = (p :: (next.complete t).1, (next.complete t).2) := by
  simp only [complete]
  rw [if_neg (by rw [h]; exact Bool.false_ne_true)]
  rfl

theorem complete_run (h : t.Steady) {r : Request} (hr : r.limit = none)
    (next : Except Fault Yield → Plan) :
    (run r next).complete t =
      (next ((t.takeScript r.program).1.given r)).complete (t.launched r) := by
  simp only [complete]
  rw [run_of_steady h hr]

theorem agrees_emit {read : Except Fault Page × Site} (h : t.fired = false) {p : Progress}
    (hp : p.done = false) {next : Plan} (hnext : Agrees read (next.complete t)) :
    Agrees read ((emit p next).complete t) := by
  rw [complete_emit h]
  exact ⟨hnext.closes.cons hp, hnext.inStep⟩

theorem agrees_result (h : s.InStep t) (page : Page) :
    Agrees (.ok page, s) ((finish (.result page)).complete t) :=
  ⟨Progress.closes_result page, h⟩

theorem agrees_stop (h : s.InStep t) (e : Fault) :
    Agrees (.error e, s) ((stop e).complete t) :=
  ⟨Progress.closes_failed e, h.note_right _ _ _⟩

theorem map_map_merge (later : Except Fault (List Page)) (held read : List Page) :
    ((later.map (read ++ ·)).map fun pages => Pages.merge (held ++ pages)) =
      later.map fun pages => Pages.merge (held ++ read ++ pages) := by
  cases later with
  | error e => simp only [Except.map]
  | ok pages => simp only [Except.map, List.append_assoc]

/-- The worker's next image gives what the reading's next image gives. -/
theorem bind_given_of_inStep (h : s.InStep t) (image : String) :
    ((t.takeScript (PageReading.readRequest image).program).1.given
        (PageReading.readRequest image)).bind (fun made => PageReading.pageOf made.output) =
      PageReading.pageGiven (PageReading.nextScript s) := by
  rw [PageReading.bind_given_readRequest, PageReading.nextScript, h.takeScript_eq]
  rfl

/-- From any page on, the reading and the plan agree; the plan holds the
pages that were read before. -/
theorem agrees_readImages (total : Nat) (paths : List String) :
    ∀ (page : Nat) (held : List Page) {s t : Site}, s.InStep t →
      Agrees
        ((PageReading.readImages total page (paths.map (s.scratch ++ ·)) s).1.map
            fun later => Pages.merge (held ++ later),
          (PageReading.readImages total page (paths.map (s.scratch ++ ·)) s).2)
        ((readImages total page held (paths.map (t.scratch ++ ·))).complete t) := by
  induction paths with
  | nil =>
    intro page held s t h
    have hresult := agrees_result h (Pages.merge held)
    rw [← List.append_nil held] at hresult
    nth_rewrite 2 [List.append_nil] at hresult
    exact hresult
  | cons path rest ih =>
    intro page held s t h
    have hnext := h.launched (PageReading.matches_readRequest s.scratch t.scratch path)
    rw [List.map_cons, List.map_cons, readImages]
    refine agrees_emit h.right.unfired rfl ?_
    rw [complete_run h.right rfl, bind_given_of_inStep h]
    cases hpage : PageReading.pageGiven (PageReading.nextScript s) with
    | ok read =>
      have hread := PageReading.readOrSkip_of_ok page total (s.scratch ++ path) h.left hpage
      have hrest := ih (page + 1) (held ++ [read]) hnext
      simp only [Site.scratch_launched] at hrest
      rw [PageReading.readImages_cons_of_ok page total _ h.left.unfired hread, map_map_merge]
      exact hrest
    | error e =>
      cases he : e.isTool with
      | true =>
        have hread := PageReading.readOrSkip_of_tool page total (s.scratch ++ path) h.left hpage he
        have hrest := ih (page + 1) held ((hnext.note_left .pages .warning
          (PageReading.skipText page total e)).note_right .progress .warning
            (PageReading.skipText page total e))
        simp only [Site.scratch_launched, Site.scratch_note] at hrest
        rw [PageReading.readImages_cons_of_ok page total _ h.left.unfired hread, map_map_merge]
        dsimp only
        rw [if_pos he, Option.toList_none, List.append_nil]
        exact hrest
      | false =>
        have hread :=
          PageReading.readOrSkip_of_not_tool page total (s.scratch ++ path) h.left hpage he
        rw [PageReading.readImages_cons_of_error page total _ h.left.unfired hread]
        dsimp only
        rw [if_neg (by rw [he]; exact Bool.false_ne_true)]
        exact agrees_stop hnext e

theorem agrees_readPdf (h : s.InStep t) (cap : Int) :
    Agrees (PageReading.readPdf cap s) ((readPdf t.scratch cap).complete t) := by
  have hnext := h.launched (PageReading.matches_renderRequest s.scratch t.scratch cap)
  have hscript := h.takeScript_eq Tool.rasterizer.name
  have hrender := PageReading.render_of_steady h.left cap
  rw [readPdf, complete_run h.right rfl]
  rcases PageReading.given_renderRequest (s.takeScript Tool.rasterizer.name).1 cap with
    ⟨e, hgiven⟩ | ⟨paths, hgiven⟩
  · rw [hgiven] at hrender
    rw [show (t.takeScript (PageReading.renderRequest t.scratch cap).program).1.given _ = .error e
      from hscript ▸ hgiven t.scratch, PageReading.readPdf, Shell.bind_of_error hrender]
    exact agrees_stop hnext e
  · obtain ⟨made, hmade, himages⟩ := hgiven s.scratch
    obtain ⟨made', hmade', himages'⟩ := hgiven t.scratch
    rw [hmade, Except.map, himages] at hrender
    rw [show (t.takeScript (PageReading.renderRequest t.scratch cap).program).1.given _ = .ok made'
      from hscript ▸ hmade', PageReading.readPdf, Shell.bind_of_ok hrender]
    dsimp only
    rw [himages']
    cases paths with
    | nil => exact agrees_result hnext {}
    | cons path rest =>
      have hread := agrees_readImages (path :: rest).length (path :: rest) 1 [] hnext
      simp only [Site.scratch_launched, List.nil_append] at hread
      simp only [List.map_cons, List.isEmpty_cons, Bool.false_eq_true, if_false,
        List.length_cons, List.length_map] at hread ⊢
      rw [Shell.bind_pure_eq]
      exact agrees_emit hnext.right.unfired rfl hread

theorem agrees_readPicture (h : s.InStep t) :
    Agrees (PageReading.readPicture s) ((readPicture t.scratch).complete t) := by
  have hnext := h.launched (PageReading.matches_readRequest s.scratch t.scratch "/input.png")
  have hget : (get : Shell Site) s = (.ok s, s) := rfl
  rw [PageReading.readPicture, Shell.bind_of_ok hget, map_eq_pure_bind, Shell.bind_pure_eq,
    PageReading.readImage_of_steady h.left, readPicture]
  refine agrees_emit h.right.unfired rfl ?_
  rw [complete_run h.right rfl, bind_given_of_inStep h]
  cases PageReading.pageGiven (PageReading.nextScript s) with
  | ok page => exact agrees_result hnext _
  | error e => exact agrees_stop hnext e

/-- Carried out at once, the plan for a document agrees with the reading of
it. -/
theorem agrees_complete (h : s.InStep t) {mime : String}
    (hmime : Mime.isPdf mime = true ∨ Mime.isImage mime = true) (data : Utf8.Bytes) (cap : Int) :
    Agrees (PageReading.read data mime cap s)
      ((forDocument t.scratch data mime cap).complete t) := by
  rw [PageReading.read, forDocument]
  cases hdata : data.isEmpty with
  | true => exact agrees_result h {}
  | false =>
    simp only [Bool.false_eq_true, if_false]
    cases hpdf : Mime.isPdf mime with
    | true =>
      have himage : Mime.isImage mime = false := Mime.isImage_eq_false_of_isPdf hpdf
      rw [if_pos rfl, himage, if_neg Bool.false_ne_true]
      exact agrees_readPdf h _
    | false =>
      have himage : Mime.isImage mime = true :=
        hmime.resolve_left (by rw [hpdf]; exact Bool.false_ne_true)
      rw [if_neg Bool.false_ne_true, himage, if_pos rfl, if_pos rfl]
      exact agrees_readPicture h

end Plan

/-! ## Workers -/

/-- A plan that gives no program a time limit. -/
inductive Plan.Unlimited : Plan → Prop where
  | finish (last : Progress) : Unlimited (.finish last)
  | emit {p : Progress} {next : Plan} (h : Unlimited next) : Unlimited (.emit p next)
  | note {level : Level} {text : String} {next : Plan} (h : Unlimited next) :
      Unlimited (.note level text next)
  | run {r : Request} {next : Except Fault Yield → Plan} (hr : r.limit = none)
      (h : ∀ ended, Unlimited (next ended)) : Unlimited (.run r next)

/-- A plan whose programs read pages: none of them has a time limit, and none is
the text extractor. -/
inductive Plan.ReadsPages : Plan → Prop where
  | finish (last : Progress) : ReadsPages (.finish last)
  | emit {p : Progress} {next : Plan} (h : ReadsPages next) : ReadsPages (.emit p next)
  | note {level : Level} {text : String} {next : Plan} (h : ReadsPages next) :
      ReadsPages (.note level text next)
  | run {r : Request} {next : Except Fault Yield → Plan} (hr : r.limit = none)
      (hprogram : r.program ≠ Tool.textExtractor.name) (h : ∀ ended, ReadsPages (next ended)) :
      ReadsPages (.run r next)

theorem Plan.ReadsPages.unlimited {plan : Plan} (h : plan.ReadsPages) : plan.Unlimited := by
  induction h with
  | finish last => exact .finish last
  | emit _ ih => exact .emit ih
  | note _ ih => exact .note ih
  | run hr _ _ ih => exact .run hr ih

/-- What a worker is left to do once its program has ended by itself. -/
def Stage.rest : Stage → StateM Site (List Progress)
  | .over => pure []
  | .waits r script _ next => (next (script.result r)).complete

/-- A worker that is left with a plan without time limits. -/
def Stage.Unlimited : Stage → Prop
  | .over => True
  | .waits _ _ _ next => ∀ ended, (next ended).Unlimited

namespace Plan

variable {t : Site}

theorem readsPages_stop (e : Fault) : (stop e).ReadsPages := .note (.finish _)

theorem readsPages_readImages (total : Nat) (images : List String) :
    ∀ (page : Nat) (held : List Page), (readImages total page held images).ReadsPages := by
  induction images with
  | nil => exact fun page held => .finish _
  | cons image rest ih =>
    intro page held
    refine .emit (.run rfl (PageReading.program_readRequest_ne _) fun ended => ?_)
    cases ended.bind fun made => PageReading.pageOf made.output with
    | ok read => exact ih _ _
    | error e =>
      dsimp only
      split_ifs
      · exact .note (ih _ _)
      · exact readsPages_stop e

theorem readsPages_readPdf (folder : String) (cap : Int) : (readPdf folder cap).ReadsPages := by
  refine .run rfl (PageReading.program_renderRequest_ne _ _) fun ended => ?_
  cases ended with
  | error e => exact readsPages_stop e
  | ok made =>
    dsimp only
    cases PageReading.images folder made.files with
    | nil => exact .finish _
    | cons image rest => exact .emit (readsPages_readImages _ _ _ _)

theorem readsPages_readPicture (folder : String) : (readPicture folder).ReadsPages := by
  refine .emit (.run rfl (PageReading.program_readRequest_ne _) fun ended => ?_)
  cases ended.bind fun made => PageReading.pageOf made.output with
  | ok read => exact .finish _
  | error e => exact readsPages_stop e

theorem readsPages_forDocument (folder : String) (data : Utf8.Bytes) (mime : String) (cap : Int) :
    (forDocument folder data mime cap).ReadsPages := by
  rw [forDocument]
  split_ifs
  · exact .finish _
  · exact readsPages_readPicture folder
  · exact readsPages_readPdf folder _

/-- A worker either goes on behind a program, or it waits for what the program
gives. -/
theorem advance_run_cases (r : Request) (next : Except Fault Yield → Plan) (waits : Bool)
    (t : Site) :
    (run r next).advance false waits t =
        (next ((t.takeScript r.program).1.given r)).advance false waits (t.launched r) ∨
      (t.takeScript r.program).1.given r = (t.takeScript r.program).1.result r ∧
        ∃ call, (run r next).advance false waits t =
          (([], .waits r (t.takeScript r.program).1 call next), t.launched r) := by
  simp only [advance, Bool.false_eq_true, if_false, Site.launch_eq, Script.given]
  cases (t.takeScript r.program).1.startFault with
  | some e => exact Or.inl rfl
  | none =>
    dsimp only
    split
    · exact Or.inl rfl
    · exact Or.inr ⟨rfl, _, rfl⟩

/-- A plan that is carried on up to a wait, and what is left to do then, give
what the plan gives when it is carried out at once. -/
theorem complete_of_advance {plan : Plan} (hplan : plan.Unlimited) (waits : Bool) (h : t.Steady) :
    plan.complete t =
        ((plan.advance false waits t).1.1 ++
            ((plan.advance false waits t).1.2.rest (plan.advance false waits t).2).1,
          ((plan.advance false waits t).1.2.rest (plan.advance false waits t).2).2) ∧
      (plan.advance false waits t).2.Steady ∧ (plan.advance false waits t).1.2.Unlimited := by
  induction hplan generalizing t with
  | finish last => exact ⟨rfl, h, trivial⟩
  | @emit p next _ ih =>
    rw [complete_emit h.unfired]
    obtain ⟨hcomplete, hsteady, hrest⟩ := ih h
    refine ⟨?_, hsteady, hrest⟩
    rw [hcomplete]
    rfl
  | @note level text next _ ih => exact ih (h.congr rfl rfl rfl)
  | @run r next hr hnext ih =>
    rw [complete_run h hr]
    rcases advance_run_cases r next waits t with hgoes | ⟨hgiven, call, hwaits⟩
    · rw [hgoes]
      exact ih _ (h.launched r)
    · rw [hwaits, hgiven]
      exact ⟨rfl, h.launched r, hnext⟩

end Plan

namespace Worker

/-- A worker goes on each time the program it waits for has ended, at any
times. -/
def Runs (waits : Bool) : Worker × Site → Worker × Site → Prop :=
  Relation.ReflTransGen fun p q => ∃ now, p.1.resume now waits p.2 = q

/-- The events that a worker has put out, and those it is left to put out,
are these, and it will leave the site like this. -/
structure Promises (worked : List Progress × Site) (p : Worker × Site) : Prop where
  steady : p.2.Steady
  unlimited : p.1.stage.Unlimited
  stream : p.1.events.ended = true → p.1.stage = .over
  events : worked.1 = p.1.events.arrived ++ (p.1.stage.rest p.2).1
  site : worked.2 = (p.1.stage.rest p.2).2

variable {waits : Bool} {worked : List Progress × Site}

theorem foldl_put {stream : ProgressStream} (h : stream.ended = false) (events : List Progress) :
    events.foldl ProgressStream.put stream =
      { stream with arrived := stream.arrived ++ events } := by
  induction events generalizing stream with
  | nil => rw [List.foldl_nil, List.append_nil]
  | cons p rest ih =>
    have hput : stream.put p = { stream with arrived := stream.arrived ++ [p] } :=
      if_neg (by rw [h]; exact Bool.false_ne_true)
    have hrest : rest.foldl ProgressStream.put { stream with arrived := stream.arrived ++ [p] } =
        { stream with arrived := stream.arrived ++ [p] ++ rest } := ih h
    rw [List.foldl_cons, hput, hrest, List.append_assoc]
    rfl

/-- What is put into a stream neither breaks it nor is read by that. -/
theorem frames_foldl_put (events : List Progress) (stream : ProgressStream) :
    (events.foldl ProgressStream.put stream).broken = stream.broken ∧
      (events.foldl ProgressStream.put stream).closed = stream.closed := by
  induction events generalizing stream with
  | nil => exact ⟨rfl, rfl⟩
  | cons p rest ih =>
    have hput : (stream.put p).broken = stream.broken ∧ (stream.put p).closed = stream.closed := by
      rw [ProgressStream.put]
      split
      · exact ⟨rfl, rfl⟩
      · exact ⟨rfl, rfl⟩
    rw [List.foldl_cons, ← hput.1, ← hput.2]
    exact ih (stream.put p)

theorem frames_take (w : Worker) (now : Float) (events : List Progress) (stage : Stage) :
    (w.take now events stage).events.broken = w.events.broken ∧
      (w.take now events stage).events.closed = w.events.closed := by
  match stage with
  | .over => exact frames_foldl_put events w.events
  | .waits r script call next => exact frames_foldl_put events w.events

theorem carryOn_eq (w : Worker) (now : Float) (plan : Plan) (t : Site) :
    w.carryOn now false waits plan t =
      (w.take now (plan.advance false waits t).1.1 (plan.advance false waits t).1.2,
        (plan.advance false waits t).2) := rfl

theorem promises_carryOn {w : Worker} {t : Site} {plan : Plan} (hw : w.events.ended = false)
    (hplan : plan.Unlimited) (h : t.Steady) (now : Float) (waits : Bool) :
    Promises (w.events.arrived ++ (plan.complete t).1, (plan.complete t).2)
      (w.carryOn now false waits plan t) := by
  obtain ⟨hcomplete, hsteady, hrest⟩ := Plan.complete_of_advance hplan waits h
  have harrived : (w.take now (plan.advance false waits t).1.1
      (plan.advance false waits t).1.2).events.arrived =
        w.events.arrived ++ (plan.advance false waits t).1.1 := by
    simp only [take, foldl_put hw]
    match (plan.advance false waits t).1.2 with
    | .over => rfl
    | .waits r script call next => rfl
  rw [carryOn_eq]
  refine ⟨hsteady, hrest, ?_, ?_, ?_⟩
  · intro hended
    simp only [take, foldl_put hw] at hended ⊢
    match hstage : (plan.advance false waits t).1.2 with
    | .over => rfl
    | .waits r script call next =>
      rw [hstage] at hended
      exact absurd hended (by rw [hw]; exact Bool.false_ne_true)
  · show w.events.arrived ++ (plan.complete t).1 = _
    rw [harrived, hcomplete, List.append_assoc]
    rfl
  · show (plan.complete t).2 = _
    rw [hcomplete]
    rfl

theorem Promises.resume {p : Worker × Site} (h : Promises worked p) (now : Float) :
    Promises worked (p.1.resume now waits p.2) := by
  obtain ⟨w, t⟩ := p
  rw [Worker.resume]
  match hstage : w.stage with
  | .over => exact h
  | .waits r script call next =>
    have hunlimited := h.unlimited
    have hworked : worked =
        (w.events.arrived ++ (w.stage.rest t).1, (w.stage.rest t).2) := Prod.ext h.events h.site
    have hopen : w.events.ended = false := by
      cases hended : w.events.ended with
      | false => rfl
      | true => exact absurd (hstage.symm.trans (h.stream hended)) Stage.noConfusion
    simp only [hstage] at hunlimited hworked
    rw [hworked]
    exact promises_carryOn hopen (hunlimited (script.result r)) h.steady now waits

/-- Whatever the times, a worker that has come to its end has done what its
plan does when it is carried out at once. -/
theorem Promises.runs {p q : Worker × Site} (h : Promises worked p) (hruns : Runs waits p q) :
    Promises worked q := by
  induction hruns with
  | refl => exact h
  | tail _ hstep ih =>
    obtain ⟨now, rfl⟩ := hstep
    exact ih.resume now

theorem Promises.eq_of_over {p : Worker × Site} (h : Promises worked p)
    (hover : p.1.stage = .over) : worked = (p.1.events.arrived, p.2) := by
  have hevents := h.events
  have hsite := h.site
  rw [hover] at hevents hsite
  refine Prod.ext ?_ hsite
  rw [hevents]
  exact List.append_nil _

/-- A worker that has stopped for the moment can go on. -/
theorem runs_resume (waits : Bool) (p : Worker × Site) (now : Float) :
    Runs waits p (p.1.resume now waits p.2) := .single ⟨now, rfl⟩

/-- A worker comes to the end of its plan. -/
theorem exists_over (plan : Plan) : ∀ (w : Worker) (t : Site) (now : Float),
    ∃ q, Runs waits (w.carryOn now false waits plan t) q ∧ q.1.stage = .over := by
  induction plan with
  | finish last => exact fun w t now => ⟨_, .refl, rfl⟩
  | emit p next ih =>
    intro w t now
    exact ih { w with events := w.events.put p } t now
  | note level text next ih =>
    intro w t now
    exact ih w (t.note .progress level text) now
  | run r next ih =>
    intro w t now
    rcases Plan.advance_run_cases r next waits t with hgoes | ⟨-, call, hwaits⟩
    · rw [carryOn_eq, hgoes, ← carryOn_eq]
      exact ih _ w (t.launched r) now
    · rw [carryOn_eq, hwaits]
      have hresume := runs_resume waits
        (w.take now [] (.waits r (t.takeScript r.program).1 call next), t.launched r) now
      obtain ⟨q, hruns, hover⟩ := ih ((t.takeScript r.program).1.result r)
        (w.take now [] (.waits r (t.takeScript r.program).1 call next)) (t.launched r) now
      exact ⟨q, hresume.trans hruns, hover⟩

end Worker

/-- At sites in step, a reading, the worker's plan carried out at once and a
worker that goes on whenever its program has ended run the same programs.
The events close with what the reading gives, and the worker comes to its
end. -/
theorem agrees_forDocument {s t : Site} (h : s.InStep t) {mime : String}
    (hmime : Mime.isPdf mime = true ∨ Mime.isImage mime = true) (data : Utf8.Bytes) (cap : Int) :
    Agrees (PageReading.read data mime cap s)
        ((Plan.forDocument t.scratch data mime cap).complete t) ∧
      ∀ (owner : Nat) (now : Float) (waits : Bool),
        (∃ q, Worker.Runs waits (Worker.start owner now false waits
            (Plan.forDocument t.scratch data mime cap) t) q ∧ q.1.stage = .over) ∧
          ∀ q, Worker.Runs waits (Worker.start owner now false waits
              (Plan.forDocument t.scratch data mime cap) t) q → q.1.stage = .over →
            Agrees (PageReading.read data mime cap s) (q.1.events.arrived, q.2) := by
  have hcomplete := Plan.agrees_complete h hmime data cap
  refine ⟨hcomplete, fun owner now waits => ⟨Worker.exists_over _ _ t now, ?_⟩⟩
  intro q hruns hover
  have hpromises := Worker.promises_carryOn
    (w := { owner := owner, stage := .over, since := now }) rfl
    (Plan.readsPages_forDocument t.scratch data mime cap).unlimited h.right now waits
  rw [← (hpromises.runs hruns).eq_of_over hover, List.nil_append]
  exact hcomplete

/-- A site with a folder at which two pages are rendered.  The first of them
cannot be read. -/
def twoPages (folder : String) : Site where
  scratch := folder
  scripts := [(Tool.rasterizer.name, [{ pages := some 2 }]),
    (Tool.ocrEngine.name, [{ status := 1 }, {}])]
  signal := some false

theorem steady_twoPages (folder : String) : (twoPages folder).Steady := by
  refine ⟨rfl, rfl, ?_⟩
  intro p hp script hscript
  rcases List.mem_cons.1 hp with rfl | hp
  · obtain rfl := List.mem_singleton.1 hscript
    exact ⟨Ending.noConfusion, fun _ => rfl⟩
  · obtain rfl := List.mem_singleton.1 hp
    rcases List.mem_cons.1 hscript with rfl | hscript
    · exact ⟨Ending.noConfusion, fun _ => rfl⟩
    · obtain rfl := List.mem_singleton.1 hscript
      exact isCalm_default _

theorem inStep_twoPages (here there : String) : (twoPages here).InStep (twoPages there) :=
  ⟨steady_twoPages here, steady_twoPages there, rfl, .nil⟩

theorem agrees_twoPages :
    Agrees (PageReading.read [37] "application/pdf" 0 (twoPages "/here"))
        ((Plan.forDocument "/there" [37] "application/pdf" 0).complete (twoPages "/there")) ∧
      ∀ (owner : Nat) (now : Float) (waits : Bool),
        (∃ q, Worker.Runs waits (Worker.start owner now false waits
            (Plan.forDocument "/there" [37] "application/pdf" 0) (twoPages "/there")) q ∧
              q.1.stage = .over) ∧
          ∀ q, Worker.Runs waits (Worker.start owner now false waits
              (Plan.forDocument "/there" [37] "application/pdf" 0) (twoPages "/there")) q →
            q.1.stage = .over →
              Agrees (PageReading.read [37] "application/pdf" 0 (twoPages "/here"))
                (q.1.events.arrived, q.2) :=
  agrees_forDocument (inStep_twoPages "/here" "/there") (Or.inl (by decide)) [37] 0

end Intake
