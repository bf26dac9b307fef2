import Intake.Proofs.Batch.Outcome
import Intake.Proofs.Program.Toolset
import Intake.Proofs.Text.Stripped
import Intake.Session.Basic

/-!
# Prompts of batch runs

What a batch run tells its model at an orderly site: the text of the document
and what was read from its pages.

There are four groups.

* Blank texts.  A text in the normal spacing that is not empty is not blank,
  and what is read from pages is such a text.
* Sources.  `DocumentSource.withPages` adds what was read from pages to what
  a model is told.
* Layers.  `textRun_found` and `pagesRun_found` say what the two layers leave
  in a report that goes on.
* Prompts.  `prompt_of_reachesModel` is the result.
-/

namespace Intake

open Text

/-! ## Blank texts -/

/-- A text that is not empty holds something beside blanks. -/
def Page.Shown (p : Page) : Prop := p.text ≠ "" → StepInfo.contentLength p.text ≠ 0

theorem contentLength_normalized {text : String} (h : normalized text ≠ "") :
    StepInfo.contentLength (normalized text) ≠ 0 := by
  have hnormal : normalize text.toList ≠ [] := by
    intro hnil
    exact h (by rw [normalized, hnil])
  have htrimmed : trim (normalize text.toList) = normalize text.toList := trim_trim _
  have hshown : trim (normalized text).toList ≠ [] := by
    rw [normalized, String.toList_ofList, htrimmed]
    exact hnormal
  rw [StepInfo.contentLength, trimmed, String.length_ofList]
  exact fun hzero => hshown (List.eq_nil_of_length_eq_zero hzero)

theorem Page.shown_default : Page.Shown {} := fun h => absurd rfl h

theorem Pages.shown_merge (pages : List Page) : (Pages.merge pages).Shown :=
  contentLength_normalized

theorem PageReading.shown_normalPage (p : Page) : (normalPage p).Shown := contentLength_normalized

/-- What is read from the pages of a document is blank only when it is
empty. -/
theorem PageReading.gives_read_shown (data : Utf8.Bytes) (mime : String) (cap : Int) :
    Shell.Gives Page.Shown (PageReading.read data mime cap) := by
  refine .ite (.pure Page.shown_default) (.ite ?_ (.ite ?_ (.pure Page.shown_default)))
  · refine .bind fun found => .ite (.pure Page.shown_default) (.bind fun pages => ?_)
    exact .pure (Pages.shown_merge pages)
  · exact .bind fun site => .map fun _ p _ _ => shown_normalPage p

/-! ## Sources -/

/-- What a model is told once the pages were read, or could not be.  They
stand in for a missing text. -/
def DocumentSource.withPages (d : DocumentSource) : Option (Except Fault Page) → DocumentSource
  | some (.ok p) =>
    { d with
      ocrText := p.text
      text := if StepInfo.contentLength p.text ≠ 0 ∧ d.text.isEmpty then p.text else d.text }
  | _ => d

namespace Job

/-- What the model is told with a report. -/
def source (j : Job) (r : Report) : DocumentSource where
  filename := j.filename
  mime := j.mime
  size := j.data.length
  pdfText := r.pdfText
  ocrText := r.pages.text
  text := r.text

/-- What the model is told when the document has this text and nothing was
read from its pages. -/
def plainSource (j : Job) (text : String) : DocumentSource where
  filename := j.filename
  mime := j.mime
  size := j.data.length
  pdfText := if Mime.isPdf j.mime then text else ""
  text := text

theorem prompt_eq (j : Job) (r : Report) : j.prompt r = .build j.entities (j.source r) := rfl

end Job

namespace Batch

variable {j : Job} {r r' : Report} {s t u v : Site}

theorem source_withPages (hr : r.pages = {}) {p : Page} (hp : p.Shown) :
    j.source (withPages r p) = (j.source r).withPages (some (.ok p)) := by
  rw [withPages]
  by_cases htext : p.text = ""
  · simp [Job.source, DocumentSource.withPages, htext, hr, StepInfo.contentLength, trimmed, trim,
      trimStart, trimEnd]
  · have hempty : p.text.isEmpty = false := by
      rw [← Bool.not_eq_true, String.isEmpty_iff]
      exact htext
    simp [Job.source, DocumentSource.withPages, hempty, hp htext]

/-! ## Layers -/

/-- A layer that a run goes on from has given its report, or it has failed and
left a record. -/
theorem orCancelled_onFault {stage : LayerKind} {x layer : Shell Report}
    {failed : Fault → Logbook → Logbook} {record : Fault → ErrorRecord}
    (hx : x s = Shell.onFault layer
      (fun e => do Shell.report (failed e); return recordFailure r (record e)) u)
    (h : orCancelled j stage r x s = (.ok (true, r'), t)) :
    layer u = (.ok r', t) ∨
      ∃ e v, layer u = (.error e, v) ∧ r' = recordFailure r (record e) ∧ v.Rests t ∧
        t.tools = v.tools := by
  rcases orCancelled_cases hx h with ⟨-, hok⟩ | ⟨e, v, book, herror, rfl, ⟨-, rfl⟩ | ⟨hstops, -⟩⟩
  · exact Or.inl hok
  · exact Or.inr ⟨e, v, herror, rfl, ⟨rfl, rfl, rfl, rfl, rfl, rfl⟩, rfl⟩
  · cases hstops

/-- The text of a document is in the report of its text layer. -/
theorem textRun_found (h : textRun j s = (.ok (true, r), t)) :
    j.source r = j.plainSource
        ((TextLayer.extract j.data j.mime (some j.settings.textTimeout)
          (begun "text" j.mime s)).1.toOption.getD "") ∧
      r.pages = {} ∧
      (TextLayer.extract j.data j.mime (some j.settings.textTimeout)
        (begun "text" j.mime s)).2.Rests t ∧
      t.tools = (TextLayer.extract j.data j.mime (some j.settings.textTimeout)
        (begun "text" j.mime s)).2.tools := by
  have hx : textStage j {} s = Shell.onFault _ _ (begun "text" j.mime s) := Shell.bind_of_ok rfl
  have hlayer := orCancelled_onFault hx h
  rcases hextract : TextLayer.extract j.data j.mime (some j.settings.textTimeout)
    (begun "text" j.mime s) with ⟨outcome, u⟩
  cases outcome with
  | ok text =>
    rw [Shell.bind_of_ok hextract] at hlayer
    rcases hlayer with hok | ⟨e, v, herror, -⟩
    · cases hok
      refine ⟨?_, rfl, ⟨rfl, rfl, rfl, rfl, rfl, rfl⟩, rfl⟩
      show j.source _ = j.plainSource text
      rw [Job.source, Job.plainSource]
    · cases herror
  | error e =>
    rw [Shell.bind_of_error hextract] at hlayer
    rcases hlayer with hok | ⟨e', v, herror, rfl, hrests, htools⟩
    · cases hok
    · cases herror
      refine ⟨?_, rfl, hrests, htools⟩
      show j.source {} = j.plainSource ""
      rw [Job.source, Job.plainSource, ite_self]

/-- What was read from the pages of a document is in the report of that
layer. -/
theorem pagesRun_found {installed : List String} (hs : s.Equipped installed)
    (hr : r.pages = {}) (h : pagesRun j r s = (.ok (true, r'), t)) : ∃ u, s.Rests u ∧
      j.source r' = (j.source r).withPages
        (if (j.hasPages && Tools.canRead installed j.mime) = true then
          some (PageReading.read j.data j.mime j.settings.maxPages u).1 else none) := by
  rw [pagesRun] at h
  cases hpages : j.hasPages with
  | false =>
    rw [hpages, if_neg Bool.false_ne_true] at h
    cases h
    exact ⟨s, .rfl, rfl⟩
  | true =>
    rw [hpages, if_pos rfl] at h
    obtain ⟨hanswer, -⟩ := hs.ask (Tools.answers_available j.mime)
    have hasked : Shell.ask (if Mime.isPdf j.mime then Tools.pdfOcrAvailable
        else Tools.imageOcrAvailable) s = (.ok (Tools.canRead installed j.mime), (s.ask
          (if Mime.isPdf j.mime then Tools.pdfOcrAvailable else Tools.imageOcrAvailable)).2) := by
      rw [← hanswer]
      rfl
    have hrests := Site.rests_ask (s := s)
      (if Mime.isPdf j.mime then Tools.pdfOcrAvailable else Tools.imageOcrAvailable)
    generalize (s.ask (if Mime.isPdf j.mime then Tools.pdfOcrAvailable
      else Tools.imageOcrAvailable)).2 = s' at hasked hrests
    rw [Bool.true_and]
    cases havailable : Tools.canRead installed j.mime with
    | false =>
      rw [havailable] at hasked
      have hstage : pagesStage j r s = (.ok r, _) :=
        (Shell.bind_of_ok hasked).trans (Shell.bind_of_ok rfl)
      rw [orCancelled_of_ok hstage] at h
      cases h
      exact ⟨s, .rfl, rfl⟩
    | true =>
      rw [havailable] at hasked
      have hx : pagesStage j r s = Shell.onFault _ _ (begun "ocr" Tool.ocrEngine.name s') :=
        (Shell.bind_of_ok hasked).trans (Shell.bind_of_ok rfl)
      have hlayer := orCancelled_onFault hx h
      have hbegun : s'.Rests (begun "ocr" Tool.ocrEngine.name s') := ⟨rfl, rfl, rfl, rfl, rfl, rfl⟩
      refine ⟨_, hrests.trans hbegun, ?_⟩
      rw [if_pos rfl]
      rcases hread : PageReading.read j.data j.mime j.settings.maxPages
        (begun "ocr" Tool.ocrEngine.name s') with ⟨outcome, u⟩
      cases outcome with
      | ok p =>
        rw [Shell.bind_of_ok hread] at hlayer
        rcases hlayer with hok | ⟨e, v, herror, -⟩
        · cases hok
          exact source_withPages hr (PageReading.gives_read_shown _ _ _ _ _ _ hread)
        · cases herror
      | error e =>
        rw [Shell.bind_of_error hread] at hlayer
        rcases hlayer with hok | ⟨e', v, herror, rfl, -⟩
        · cases hok
        · rfl

/-! ## Prompts -/

/-- At an orderly site a run that gets to its model tells it the text of the
document and what was read from its pages. -/
theorem prompt_of_reachesModel {installed : List String} {client : ChatClient} (hs : s.Orderly)
    (he : s.Equipped installed) (h : ReachesModel j s client r t) : ∃ u,
      (s.textRan (TextLayer.runs installed j.mime)
        (TextLayer.boundInForce (some j.settings.textTimeout))).Rests u ∧
      j.prompt r = .build j.entities
        ((j.plainSource ((TextLayer.found installed (s.takeScript Tool.textExtractor.name).1 j.data
            j.mime (some j.settings.textTimeout)).toOption.getD "")).withPages
          (if (j.hasPages && Tools.canRead installed j.mime) = true then
            some (PageReading.read j.data j.mime j.settings.maxPages u).1 else none)) := by
  obtain ⟨r₁, t₁, hreach, hpages⟩ := h.pages
  have hbegun : s.Rests (begun "text" j.mime (started j s)) := ⟨rfl, rfl, rfl, rfl, rfl, rfl⟩
  obtain ⟨hsource, hplain, hafter, htools⟩ := textRun_found hreach.text
  obtain ⟨hfound, hran, hequipped⟩ := TextLayer.extract_of_orderly (hs.rests hbegun)
    (he.congr rfl) hreach.data j.mime (some j.settings.textTimeout)
  obtain ⟨u, hrests, hpaged⟩ := pagesRun_found (hequipped.congr htools) hplain hpages
  refine ⟨u, (((hbegun.textRan _ _).trans hran).trans hafter).trans hrests, ?_⟩
  rw [Job.prompt_eq, hpaged, hsource, hfound]
  rfl

end Batch
end Intake
