import Intake.Proofs.Layer.Agreement
import Intake.Proofs.Program.Orderly

/-!
# Readings in accord

The reading of a document and the worker's plan for it come to the same, also
where programs fail, hang or are stopped and whenever the cancellation fires.

There are three groups.

* Outcomes.  `Accords` says that a worker's last event carries what a reading
  came to; `Closes.carries` picks this event out.
* Parts.  An event, a program and an end of a plan against the same part of a
  reading.
* Documents.  `accords_readImages` is the induction over the pages, and
  `accords_complete` is the result.
-/

namespace Intake

/-! ## Outcomes -/

/-- A worker's last event carries what a reading came to, and the sites agree
on all that reading pages depends on. -/
structure Accords (read : Except Fault Page × Site) (worked : List Progress × Site) : Prop where
  closes : Progress.Closes worked.1 read.1
  alike : read.2.ReadsAlike worked.2

theorem Progress.Closes.carries {earlier : List Progress} {last : Progress}
    {outcome : Except Fault Page} (h : Progress.Closes (earlier ++ [last]) outcome) :
    last.Carries outcome := by
  obtain ⟨before, p, hevents, -, -, hp⟩ := h
  obtain ⟨-, hlast⟩ := List.append_inj' hevents rfl
  rwa [List.singleton_inj.1 hlast]

theorem Progress.outcome_of_carries {outcome : Except Fault Page} {e : Fault}
    (h : (Progress.failed e).Carries outcome) : outcome = .error e := by
  cases outcome with
  | ok page => cases h.2.2
  | error e' => rw [Option.some.inj h.2.2]

/-! ## Parts -/

namespace Plan

variable {s t : Site}

theorem accords_emit {read : Except Fault Page × Site} (h : t.fired = false) {p : Progress}
    (hp : p.done = false) {next : Plan} (hnext : Accords read (next.complete t)) :
    Accords read ((emit p next).complete t) := by
  rw [complete_emit h]
  exact ⟨hnext.closes.cons hp, hnext.alike⟩

theorem accords_result (h : s.ReadsAlike t) (page : Page) :
    Accords (.ok page, s) ((finish (.result page)).complete t) :=
  ⟨Progress.closes_result page, h⟩

theorem accords_stop (h : s.ReadsAlike t) (e : Fault) :
    Accords (.error e, s) ((stop e).complete t) :=
  ⟨Progress.closes_failed e, h.scratch, h.scripts, h.signal, h.abandoned⟩

theorem accords_fired (h : s.ReadsAlike t) (ht : t.fired = true) (p : Progress) (next : Plan) :
    Accords (.error .cancelled, s) ((emit p next).complete t) := by
  simp only [complete]
  rw [if_pos ht]
  exact accords_stop h .cancelled

/-- A plan's program is the reading's program. -/
theorem accords_run {read : Except Fault Page × Site} {r : Request}
    {next : Except Fault Yield → Plan} (h : s.ReadsAlike t)
    (hr : r.program ≠ Tool.textExtractor.name)
    (hnext : ∀ u, (Shell.run r s).2.ReadsAlike u →
      Accords read ((next (Shell.run r s).1).complete u)) :
    Accords read ((run r next).complete t) := by
  obtain ⟨hended, hafter⟩ := Shell.respects_run hr s t h
  have hrest := hnext _ hafter
  rw [← hended] at hrest
  exact hrest

end Plan

/-! ## Documents -/

theorem PageReading.readImages_cons_of_fired (total page : Nat) (image : String)
    (rest : List String) {s : Site} (h : s.fired = true) :
    readImages total page (image :: rest) s = (.error .cancelled, s) := by
  rw [readImages, Shell.bind_of_error (Shell.check_of_fired h)]

namespace Plan

variable {s t : Site}

/-- From any page on, the reading and the plan accord; the plan holds the
pages that were read before. -/
theorem accords_readImages (total : Nat) (images : List String) :
    ∀ (page : Nat) (held : List Page) {s t : Site}, s.ReadsAlike t →
      Accords
        ((PageReading.readImages total page images s).1.map
            fun later => Pages.merge (held ++ later),
          (PageReading.readImages total page images s).2)
        ((readImages total page held images).complete t) := by
  induction images with
  | nil =>
    intro page held s t h
    have hresult := accords_result h (Pages.merge held)
    rw [← List.append_nil held] at hresult
    nth_rewrite 2 [List.append_nil] at hresult
    exact hresult
  | cons image rest ih =>
    intro page held s t h
    rw [readImages]
    cases hfired : s.fired with
    | true =>
      rw [PageReading.readImages_cons_of_fired _ _ _ _ hfired]
      exact accords_fired h (h.fired_eq.trans hfired) _ _
    | false =>
      refine accords_emit (h.fired_eq.trans hfired) rfl
        (accords_run h (PageReading.program_readRequest_ne image) fun u hu => ?_)
      have himage := PageReading.readImage_eq image s
      cases hpage : (Shell.run (PageReading.readRequest image) s).1.bind
        fun made => PageReading.pageOf made.output with
      | ok read =>
        rw [hpage] at himage
        rw [PageReading.readImages_cons_of_ok page total image hfired
          (PageReading.readOrSkip_ok page total image himage), map_map_merge]
        exact ih (page + 1) (held ++ [read]) hu
      | error e =>
        rw [hpage] at himage
        cases he : e.isTool with
        | true =>
          rw [PageReading.readImages_cons_of_ok page total image hfired
            (PageReading.readOrSkip_tool page total image himage he), map_map_merge]
          dsimp only
          rw [if_pos he, Option.toList_none, List.append_nil]
          -- Both take a record that the page was left out, each from its own source.
          exact ih (page + 1) held ⟨hu.scratch, hu.scripts, hu.signal, hu.abandoned⟩
        | false =>
          rw [PageReading.readImages_cons_of_error page total image hfired
            (PageReading.readOrSkip_not_tool page total image himage he)]
          dsimp only
          rw [if_neg (by rw [he]; exact Bool.false_ne_true)]
          exact accords_stop hu e

theorem accords_readPdf (h : s.ReadsAlike t) (cap : Int) :
    Accords (PageReading.readPdf cap s) ((readPdf t.scratch cap).complete t) := by
  have hget : (get : Shell Site) s = (.ok s, s) := rfl
  rw [readPdf, h.scratch]
  refine accords_run h (PageReading.program_renderRequest_ne s.scratch cap) fun u hu => ?_
  have hrender : PageReading.render cap s =
      ((Shell.run (PageReading.renderRequest s.scratch cap) s).1.map
          fun made => PageReading.images s.scratch made.files,
        (Shell.run (PageReading.renderRequest s.scratch cap) s).2) := by
    rw [PageReading.render, Shell.bind_of_ok hget, Shell.bind_pure_eq]
  rw [PageReading.readPdf]
  cases hended : (Shell.run (PageReading.renderRequest s.scratch cap) s).1 with
  | error e =>
    rw [hended] at hrender
    rw [Shell.bind_of_error hrender]
    exact accords_stop hu e
  | ok made =>
    rw [hended] at hrender
    rw [Shell.bind_of_ok hrender]
    obtain ⟨found, hfound⟩ : ∃ found, PageReading.images s.scratch made.files = found := ⟨_, rfl⟩
    simp only [hfound]
    cases found with
    | nil => exact accords_result hu {}
    | cons image rest =>
      simp only [List.isEmpty_cons, Bool.false_eq_true, if_false]
      rw [Shell.bind_pure_eq]
      have hread := accords_readImages (image :: rest).length (image :: rest) 1 [] hu
      cases hfired : (Shell.run (PageReading.renderRequest s.scratch cap) s).2.fired with
      | true =>
        rw [PageReading.readImages_cons_of_fired _ _ _ _ hfired]
        exact accords_fired hu (hu.fired_eq.trans hfired) _ _
      | false => exact accords_emit (hu.fired_eq.trans hfired) rfl hread

theorem accords_readPicture (h : s.ReadsAlike t) :
    Accords (PageReading.readPicture s) ((readPicture t.scratch).complete t) := by
  have hget : (get : Shell Site) s = (.ok s, s) := rfl
  rw [PageReading.readPicture, Shell.bind_of_ok hget, map_eq_pure_bind, Shell.bind_pure_eq,
    PageReading.readImage_eq, readPicture, h.scratch]
  cases hfired : s.fired with
  | true =>
    rw [Shell.run_of_fired _ (by simpa [Site.fired] using hfired)]
    exact accords_fired h (h.fired_eq.trans hfired) _ _
  | false =>
    refine accords_emit (h.fired_eq.trans hfired) rfl
      (accords_run h (PageReading.program_readRequest_ne _) fun u hu => ?_)
    cases (Shell.run (PageReading.readRequest (s.scratch ++ "/input.png")) s).1.bind
      fun made => PageReading.pageOf made.output with
    | ok page => exact accords_result hu _
    | error e => exact accords_stop hu e

/-- The plan for a document accords with the reading of it, whenever the
cancellation fires. -/
theorem accords_complete (h : s.ReadsAlike t) {mime : String}
    (hmime : Mime.isPdf mime = true ∨ Mime.isImage mime = true) (data : Text.Utf8.Bytes)
    (cap : Int) :
    Accords (PageReading.read data mime cap s)
      ((forDocument t.scratch data mime cap).complete t) := by
  rw [PageReading.read, forDocument]
  cases hdata : data.isEmpty with
  | true => exact accords_result h {}
  | false =>
    simp only [Bool.false_eq_true, if_false]
    cases hpdf : Mime.isPdf mime with
    | true =>
      have himage : Mime.isImage mime = false := Mime.isImage_eq_false_of_isPdf hpdf
      rw [if_pos rfl, himage, if_neg Bool.false_ne_true]
      exact accords_readPdf h _
    | false =>
      have himage : Mime.isImage mime = true :=
        hmime.resolve_left (by rw [hpdf]; exact Bool.false_ne_true)
      rw [if_neg Bool.false_ne_true, himage, if_pos rfl, if_pos rfl]
      exact accords_readPicture h

end Plan

end Intake
