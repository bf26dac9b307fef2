import Intake.Proofs.Batch.Asked
import Intake.Proofs.Batch.Prompted
import Intake.Proofs.Program.Found

/-!
# Coherence of reports

Whatever the layers of a run come to, its report fits together: each part of
it follows from what the layers gave.

There are four groups.

* Findings.  `Batch.Findings` is what the layers of a run gave, and
  `Findings.report` the report of it.  `Findings.Sound` is what holds of
  findings at any time.
* Layers.  `textRun_gives`, `pagesRun_gives` and `modelRun_gives` say what a
  layer adds to the findings.
* Runs.  `run_gives` puts the layers together.
* Coherence.  `Batch.Coherent` says how the parts of a report go together;
  `coherent_of_run` is the result.
-/

namespace Intake.Batch

variable {j : Job} {r r' : Report} {s t u : Site} {b : Bool} {finds : Tool → Bool}
  {before : List (List String)}

/-! ## Findings -/

/-- What the layers of a run gave. -/
structure Findings where
  /-- The text layer; it is empty if there is none. -/
  text : String := ""
  pages : Page := {}
  hints : Option Hints := none
  textError : Option ErrorRecord := none
  pagesError : Option ErrorRecord := none
  modelError : Option ErrorRecord := none
  warning : Option ErrorRecord := none

namespace Findings

/-- The report of what the layers gave. -/
def report (j : Job) (f : Findings) : Report where
  text := if f.text = "" then f.pages.text else f.text
  pdfText := if Mime.isPdf j.mime then f.text else ""
  pages := f.pages
  hints := f.hints
  pagesUsed := f.pages.text ≠ ""
  modelUsed := f.hints.isSome
  errors :=
    { errors := f.textError.toList ++ f.pagesError.toList ++ f.modelError.toList
      warnings := f.warning.toList }

/-- What holds of findings at any time.  A record names the layer it is about,
and a layer that has left one has given nothing. -/
structure Sound (j : Job) (finds : Tool → Bool) (f : Findings) : Prop where
  pages : f.pages.text = "" → f.pages = {}
  textError : ∀ e ∈ f.textError, e.phase = LayerKind.text.name ∧
    Mime.isPdf j.mime = true ∧ finds .textExtractor = true
  pagesError : ∀ e ∈ f.pagesError, e.phase = LayerKind.ocr.name ∧ f.pages = {} ∧
    Tools.FindsReaders finds j.mime
  modelError : ∀ e ∈ f.modelError, e.phase = LayerKind.llm.name ∧ f.hints = none
  warning : ∀ w ∈ f.warning, w.category = .cancelled ∧ f.hints = none ∧ f.modelError = none

/-- The pages have given nothing yet. -/
structure Unread (f : Findings) : Prop where
  pages : f.pages = {}
  pagesError : f.pagesError = none

/-- The model has given nothing yet. -/
structure Unasked (f : Findings) : Prop where
  hints : f.hints = none
  modelError : f.modelError = none

/-- A report is one of sound findings, from this text layer, before the model
was asked.  A run that goes on has no warning. -/
structure Gives (j : Job) (finds : Tool → Bool) (text : String) (b : Bool) (r : Report)
    (f : Findings) : Prop where
  report : r = f.report j
  text : f.text = text
  sound : f.Sound j finds
  unasked : f.Unasked
  goesOn : b = true → f.warning = none

variable {f : Findings} {e : ErrorRecord}

theorem report_default (j : Job) : ({} : Findings).report j = {} := by
  simp [report]

theorem report_text (j : Job) (text : String) :
    report j { text := text } =
      { text := text, pdfText := if Mime.isPdf j.mime then text else "" } := by
  simp only [report]
  congr 1
  split
  next hempty => exact hempty.symm
  next => rfl

theorem recordFailure_textError (he : e.severity = .error) :
    recordFailure {} e = report j { textError := some e } := by
  simp [recordFailure, report, ErrorLog.add, he]

theorem recordFailure_pagesError (he : e.severity = .error) (hlater : f.pagesError = none)
    (hmodel : f.modelError = none) :
    recordFailure (f.report j) e = report j { f with pagesError := some e } := by
  simp [recordFailure, report, ErrorLog.add, he, hlater, hmodel]

theorem recordFailure_modelError (he : e.severity = .error) (hmodel : f.modelError = none) :
    recordFailure (f.report j) e = report j { f with modelError := some e } := by
  simp [recordFailure, report, ErrorLog.add, he, hmodel]

theorem recordFailure_warning (he : e.severity = .warning) (hwarning : f.warning = none) :
    recordFailure (f.report j) e = report j { f with warning := some e } := by
  simp [recordFailure, report, ErrorLog.add, he, hwarning]

theorem withPages_report (p : Page) (hpages : f.pages = {}) :
    withPages (f.report j) p =
      report j { f with pages := if p.text = "" then {} else p } := by
  rw [withPages]
  by_cases hp : p.text = ""
  · simp [hp, report, hpages]
  · by_cases ht : f.text = ""
    · simp [hp, ht, report, hpages]
    · simp [hp, ht, report, hpages]

theorem sound_default : ({} : Findings).Sound j finds :=
  have hnone : ∀ e : ErrorRecord, e ∉ (none : Option ErrorRecord) := Option.not_mem_none
  ⟨fun _ => rfl, fun e he => absurd he (hnone e), fun e he => absurd he (hnone e),
    fun e he => absurd he (hnone e), fun e he => absurd he (hnone e)⟩

theorem Sound.withText (h : f.Sound j finds) (text : String) :
    Sound j finds { f with text := text } :=
  ⟨h.pages, h.textError, h.pagesError, h.modelError, h.warning⟩

theorem Sound.withTextError (h : f.Sound j finds) (hphase : e.phase = LayerKind.text.name)
    (hpdf : Mime.isPdf j.mime = true) (hfound : finds .textExtractor = true) :
    Sound j finds { f with textError := some e } := by
  refine ⟨h.pages, fun e' he' => ?_, h.pagesError, h.modelError, h.warning⟩
  obtain rfl := Option.some.inj he'
  exact ⟨hphase, hpdf, hfound⟩

theorem Sound.withPages (h : f.Sound j finds) (hpagesError : f.pagesError = none) (p : Page) :
    Sound j finds { f with pages := if p.text = "" then {} else p } := by
  refine ⟨fun hempty => ?_, h.textError, fun e he => ?_, h.modelError, h.warning⟩
  · dsimp only at hempty ⊢
    split
    next => rfl
    next hp =>
      rw [if_neg hp] at hempty
      exact absurd hempty hp
  · rw [hpagesError] at he
    cases he

theorem Sound.withPagesError (h : f.Sound j finds) (hpages : f.pages = {})
    (hphase : e.phase = LayerKind.ocr.name) (hfinds : Tools.FindsReaders finds j.mime) :
    Sound j finds { f with pagesError := some e } := by
  refine ⟨h.pages, h.textError, fun e' he' => ?_, h.modelError, h.warning⟩
  obtain rfl := Option.some.inj he'
  exact ⟨hphase, hpages, hfinds⟩

theorem Sound.withHints (h : f.Sound j finds) (hmodelError : f.modelError = none)
    (hwarning : f.warning = none) (hints : Hints) :
    Sound j finds { f with hints := some hints } := by
  refine ⟨h.pages, h.textError, h.pagesError, fun e he => ?_, fun w hw => ?_⟩
  · rw [hmodelError] at he
    cases he
  · rw [hwarning] at hw
    cases hw

theorem Sound.withModelError (h : f.Sound j finds) (hhints : f.hints = none)
    (hwarning : f.warning = none) (hphase : e.phase = LayerKind.llm.name) :
    Sound j finds { f with modelError := some e } := by
  refine ⟨h.pages, h.textError, h.pagesError, fun e' he' => ?_, fun w hw => ?_⟩
  · obtain rfl := Option.some.inj he'
    exact ⟨hphase, hhints⟩
  · rw [hwarning] at hw
    cases hw

theorem Sound.withWarning (h : f.Sound j finds) (hunasked : f.Unasked)
    (hcategory : e.category = .cancelled) : Sound j finds { f with warning := some e } := by
  refine ⟨h.pages, h.textError, h.pagesError, h.modelError, fun w hw => ?_⟩
  obtain rfl := Option.some.inj hw
  exact ⟨hcategory, hunasked.hints, hunasked.modelError⟩

end Findings

/-! ## Layers -/

/-- The text layer of a document that is looked for here. -/
def layerText (j : Job) (s : Site) : String :=
  (TextLayer.extract j.data j.mime (some j.settings.textTimeout)
    (begun "text" j.mime s)).1.toOption.getD ""

/-- The text layer gives its text, or it leaves a record. -/
theorem textRun_gives (hs : s.StartsFound finds before) (h : textRun j s = (.ok (b, r), t)) :
    t.StartsFound finds before ∧
      ∃ f : Findings, f.Gives j finds (layerText j s) b r ∧ f.Unread := by
  have hbegun : (begun "text" j.mime s).StartsFound finds before := hs.congr rfl rfl
  have hx : textStage j {} s = Shell.onFault _ _ (begun "text" j.mime s) := Shell.bind_of_ok rfl
  have hcases := orCancelled_cases hx h
  obtain ⟨hkept, hfault⟩ := keepsFound_extract j.data j.mime (some j.settings.textTimeout)
    (begun "text" j.mime s) hbegun
  rcases hextract : TextLayer.extract j.data j.mime (some j.settings.textTimeout)
    (begun "text" j.mime s) with ⟨outcome, v⟩
  rw [hextract] at hkept hfault
  rw [layerText, hextract]
  have hsound : ({} : Findings).Sound j finds := Findings.sound_default
  cases outcome with
  | ok text =>
    rw [Shell.bind_of_ok hextract] at hcases
    rcases hcases with ⟨rfl, hok⟩ | ⟨e, w, book, herror, -⟩
    · cases hok
      have hreport := (Findings.report_text j text).symm
      exact ⟨hkept.congr rfl rfl, _, ⟨hreport, rfl, hsound.withText text, ⟨rfl, rfl⟩,
        fun _ => rfl⟩, rfl, rfl⟩
    · cases herror
  | error e =>
    obtain ⟨hpdf, hfound⟩ := hfault e rfl
    rw [Shell.bind_of_error hextract] at hcases
    rcases hcases with ⟨-, hok⟩ | ⟨e', w, book, herror, rfl, ⟨rfl, rfl⟩ | ⟨rfl, rfl⟩⟩
    · cases hok
    · cases herror
      have hreport := Findings.recordFailure_textError (j := j) (e := .textExtraction
        ("text extraction: " ++ e.message) (some j.filename) (some e)) rfl
      exact ⟨hkept.congr rfl rfl, _, ⟨hreport, rfl, hsound.withTextError rfl hpdf hfound,
        ⟨rfl, rfl⟩, fun _ => rfl⟩, rfl, rfl⟩
    · cases herror
      have hreport := Findings.recordFailure_warning (j := j) (f := {})
        (e := .cancelled LayerKind.text.name (some j.filename)) rfl rfl
      rw [Findings.report_default] at hreport
      exact ⟨hkept.congr rfl rfl, _, ⟨hreport, rfl, hsound.withWarning ⟨rfl, rfl⟩ rfl, ⟨rfl, rfl⟩,
        nofun⟩, rfl, rfl⟩

/-- What a layer of the pages adds to findings, when the tools for it were
found. -/
theorem pagesRead_gives {f : Findings} {text : String} (hf : f.Gives j finds text true r)
    (hunread : f.Unread) (hfinds : Tools.FindsReaders finds j.mime) {layer : Shell Page}
    {report : Page → Logbook → Logbook} {failed : Fault → Logbook → Logbook}
    {x : Shell Report} (hkeeps : Shell.Keeps (Site.StartsFound finds before) (fun _ => True) layer)
    (hu : u.StartsFound finds before)
    (hx : x s = Shell.onFault
      (do let p ← layer; Shell.report (report p); return withPages r p)
      (fun e => do
        Shell.report (failed e)
        return recordFailure r (.ocr ("ocr: " ++ e.message) (some j.filename) (some e))) u)
    (h : orCancelled j .ocr r x s = (.ok (b, r'), t)) :
    t.StartsFound finds before ∧ ∃ f' : Findings, f'.Gives j finds text b r' := by
  have hcases := orCancelled_cases hx h
  have hkept := (hkeeps u hu).1
  rcases hread : layer u with ⟨outcome, v⟩
  rw [hread] at hkept
  cases outcome with
  | ok p =>
    rw [Shell.bind_of_ok hread] at hcases
    rcases hcases with ⟨rfl, hok⟩ | ⟨e, w, book, herror, -⟩
    · cases hok
      have hreport := Findings.withPages_report (j := j) p hunread.pages
      rw [← hf.report] at hreport
      exact ⟨hkept.congr rfl rfl, _, hreport, hf.text, hf.sound.withPages hunread.pagesError p,
        ⟨hf.unasked.hints, hf.unasked.modelError⟩, hf.goesOn⟩
    · cases herror
  | error e =>
    rw [Shell.bind_of_error hread] at hcases
    rcases hcases with ⟨-, hok⟩ | ⟨e', w, book, herror, rfl, ⟨rfl, rfl⟩ | ⟨rfl, rfl⟩⟩
    · cases hok
    · cases herror
      have hreport := Findings.recordFailure_pagesError (j := j)
        (e := .ocr ("ocr: " ++ e.message) (some j.filename) (some e)) rfl hunread.pagesError
        hf.unasked.modelError
      rw [← hf.report] at hreport
      exact ⟨hkept.congr rfl rfl, _, hreport, hf.text,
        hf.sound.withPagesError hunread.pages rfl hfinds,
        ⟨hf.unasked.hints, hf.unasked.modelError⟩, hf.goesOn⟩
    · cases herror
      have hreport := Findings.recordFailure_warning (j := j)
        (e := .cancelled LayerKind.ocr.name (some j.filename)) rfl (hf.goesOn rfl)
      rw [← hf.report] at hreport
      exact ⟨hkept.congr rfl rfl, _, hreport, hf.text, hf.sound.withWarning hf.unasked rfl,
        ⟨hf.unasked.hints, hf.unasked.modelError⟩, nofun⟩

/-- The pages give their text, or they leave a record, or they are left
alone. -/
theorem pagesRun_gives {f : Findings} {text : String} (hs : s.StartsFound finds before)
    (hf : f.Gives j finds text true r) (hunread : f.Unread)
    (h : pagesRun j r s = (.ok (b, r'), t)) :
    t.StartsFound finds before ∧ ∃ f' : Findings, f'.Gives j finds text b r' := by
  have hskipped : t.StartsFound finds before → (b, r') = (true, r) →
      t.StartsFound finds before ∧ ∃ f' : Findings, f'.Gives j finds text b r' := by
    rintro ht ⟨⟩
    exact ⟨ht, f, hf⟩
  rw [pagesRun] at h
  split at h
  next =>
    have hsteady : Tools.Steady (if Mime.isPdf j.mime then Tools.pdfOcrAvailable
        else Tools.imageOcrAvailable) := by
      split
      · exact Tools.steady_pdfOcrAvailable
      · exact Tools.steady_has .ocrEngine
    have hasked := hs.ask hsteady
    rcases hask : s.ask (if Mime.isPdf j.mime then Tools.pdfOcrAvailable
      else Tools.imageOcrAvailable) with ⟨available, u⟩
    rw [hask] at hasked
    have hshell : pagesAvailable j s = (.ok available, u) := by
      rw [pagesAvailable, Shell.ask, hask]
    cases available with
    | false =>
      have hstage : pagesStage j r s = (.ok r, _) :=
        (Shell.bind_of_ok hshell).trans (Shell.bind_of_ok rfl)
      rw [orCancelled_of_ok hstage] at h
      cases h
      exact hskipped (hasked.congr rfl rfl) rfl
    | true =>
      have hfinds : Tools.FindsReaders finds j.mime := by
        have hreaders := Tools.findsReaders_of_available s.tools j.mime
          (congrArg Prod.fst hask)
        rwa [show s.tools.finds = finds from funext hs.answers] at hreaders
      have hbegun : (begun "ocr" Tool.ocrEngine.name u).StartsFound finds before :=
        hasked.congr rfl rfl
      exact pagesRead_gives hf hunread hfinds (keepsFound_read hfinds _ _) hbegun
        ((Shell.bind_of_ok hshell).trans (Shell.bind_of_ok rfl)) h
  next =>
    cases h
    exact hskipped hs rfl

/-- The model gives hints, or it leaves a record. -/
theorem modelRun_gives {f : Findings} {text : String} {client : ChatClient}
    (hs : s.StartsFound finds before) (hf : f.Gives j finds text true r)
    (h : modelRun j r client s = (.ok (b, r'), t)) :
    t.StartsFound finds before ∧ ∃ f' : Findings, r' = f'.report j ∧ f'.Sound j finds ∧
      f'.text = text ∧ f'.pages = f.pages := by
  have hbegun : (begun "llm" client.model s).StartsFound finds before := hs.congr rfl rfl
  have hasked := Shell.startsFound_complete hbegun client (j.prompt r).messages
  have hfailed : ∀ e : ErrorRecord, e.severity = .error → e.phase = LayerKind.llm.name →
      ∃ f' : Findings, recordFailure r e = f'.report j ∧ f'.Sound j finds ∧ f'.text = text ∧
        f'.pages = f.pages := by
    intro e he hphase
    have hreport := Findings.recordFailure_modelError (j := j) he hf.unasked.modelError
    rw [← hf.report] at hreport
    exact ⟨_, hreport, hf.sound.withModelError hf.unasked.hints (hf.goesOn rfl) hphase, hf.text,
      rfl⟩
  rcases hcall : Shell.complete client (j.prompt r).messages (begun "llm" client.model s)
    with ⟨outcome, u⟩
  rw [hcall] at hasked
  cases outcome with
  | error e =>
    rw [modelRun_eq_of_fault hcall] at h
    split at h
    · cases h
    · cases h
      exact ⟨hasked.congr rfl rfl, hfailed _ rfl rfl⟩
  | ok reply =>
    obtain ⟨book, hrun⟩ := modelRun_eq_of_reply (j := j) hcall
    rw [hrun] at h
    cases hread : Reply.read reply with
    | ok hints =>
      rw [hread] at h
      cases h
      refine ⟨hasked.congr rfl rfl, { f with hints := some hints }, ?_,
        hf.sound.withHints hf.unasked.modelError (hf.goesOn rfl) hints, hf.text, rfl⟩
      rw [hf.report]
      rfl
    | error failure =>
      rw [hread] at h
      cases failure with
      | malformed m =>
        cases h
        exact ⟨hasked.congr rfl rfl, hfailed _ rfl rfl⟩
      | overflow => cases h

/-! ## Runs -/

/-- The layers before the model give the report of sound findings. -/
theorem layersRun_gives (hs : s.StartsFound finds before) (h : layersRun j s = (.ok (b, r), t)) :
    t.StartsFound finds before ∧ ∃ f : Findings, f.Gives j finds (layerText j s) b r := by
  rcases htext : textRun j s with ⟨outcome, u⟩
  cases outcome with
  | error e => cases (Shell.bind_of_error htext).symm.trans h
  | ok p =>
    obtain ⟨goesOn, r₁⟩ := p
    obtain ⟨hu, f, hf, hunread⟩ := textRun_gives hs htext
    rw [layersRun, Shell.bind_of_ok htext] at h
    cases goesOn with
    | false =>
      cases h
      exact ⟨hu, f, hf⟩
    | true => exact pagesRun_gives hu hf hunread h

/-- A report is passed on, or the model is asked about it. -/
theorem modelPart_cases (h : modelPart j r s = (.ok r', t)) :
    (r' = r ∧ t = s) ∨ ∃ client b, j.modelInUse = some client ∧ hasText r = true ∧
      modelRun j r client s = (.ok (b, r'), t) := by
  rw [modelPart] at h
  cases hclient : j.modelInUse with
  | none =>
    rw [hclient] at h
    cases h
    exact Or.inl ⟨rfl, rfl⟩
  | some client =>
    rw [hclient] at h
    cases htext : hasText r with
    | false =>
      rw [htext] at h
      cases h
      exact Or.inl ⟨rfl, rfl⟩
    | true =>
      rw [htext] at h
      rcases hrun : modelRun j r client s with ⟨outcome, u⟩
      cases outcome with
      | error e => cases (Shell.bind_of_error hrun).symm.trans h
      | ok p =>
        cases (Shell.bind_of_ok hrun).symm.trans h
        exact Or.inr ⟨client, p.1, rfl, rfl, hrun⟩

/-- The layers before the model have given the report of a run, or the model
was asked about theirs. -/
theorem stages_cases (h : stages j s = (.ok r, t)) :
    ∃ b r₁ u, layersRun j s = (.ok (b, r₁), u) ∧
      ((r = r₁ ∧ t = u) ∨ ∃ client b', b = true ∧ j.modelInUse = some client ∧
        hasText r₁ = true ∧ modelRun j r₁ client u = (.ok (b', r), t)) := by
  rcases hlayers : layersRun j s with ⟨outcome, u⟩
  cases outcome with
  | error e =>
    rw [stages_eq, Shell.bind_of_error hlayers] at h
    cases h
  | ok p =>
    obtain ⟨b, r₁⟩ := p
    refine ⟨b, r₁, u, rfl, ?_⟩
    rw [stages_of_layersRun hlayers] at h
    cases b with
    | false =>
      cases h
      exact Or.inl ⟨rfl, rfl⟩
    | true =>
      rcases modelPart_cases h with hplain | ⟨client, b', hclient, htext, hrun⟩
      · exact Or.inl hplain
      · exact Or.inr ⟨client, b', rfl, hclient, htext, hrun⟩

/-- Only records are added to what the layers of a run have left. -/
theorem stages_of_run (hdata : j.data.isEmpty = false) (h : run j s = (.ok r, t)) :
    ∃ u book, stages j (started j s) = (.ok r, u) ∧ t = { u with book := book } := by
  rcases hstages : stages j (started j s) with ⟨outcome, u⟩
  cases outcome with
  | error e => cases (run_of_stages_error hdata hstages).symm.trans h
  | ok r' =>
    obtain ⟨book, hrun⟩ := run_eq_of_stages_ok hdata hstages
    cases hrun.symm.trans h
    exact ⟨u, book, rfl, rfl⟩

/-- What the model was asked about is all in the report. -/
theorem hasText_report {f f' : Findings} (htext : f'.text = f.text) (hpages : f'.pages = f.pages) :
    hasText (f'.report j) = hasText (f.report j) := by
  simp [hasText, Findings.report, htext, hpages]

/-- The layers give the report of sound findings, and ask the model at most
once. -/
theorem stages_gives (hs : s.StartsFound finds before) (h : stages j s = (.ok r, t)) :
    t.StartsFound finds before ∧
      (∃ f : Findings, r = f.report j ∧ f.Sound j finds ∧ f.text = layerText j s) ∧
      ∃ asked, t.desk.requests = s.desk.requests ++ asked ∧ asked.length ≤ 1 ∧
        (hasText r = false ∨ j.modelInUse = none → asked = []) := by
  obtain ⟨b, r₁, u, hlayers, hcases⟩ := stages_cases h
  obtain ⟨hu, f, hf⟩ := layersRun_gives hs hlayers
  have hquiet := asks_layersRun j s
  rw [hlayers] at hquiet
  rcases hcases with ⟨rfl, rfl⟩ | ⟨client, b', rfl, hclient, htext, hrun⟩
  · exact ⟨hu, ⟨f, hf.report, hf.sound, hf.text⟩, [], hquiet, Nat.zero_le _, fun _ => rfl⟩
  · obtain ⟨ht, f', hreport, hsound, htext', hpages⟩ := modelRun_gives hu hf hrun
    have hasked := asks_modelRun j r₁ client u
    rw [hrun, hquiet, List.append_nil] at hasked
    refine ⟨ht, ⟨f', hreport, hsound, htext'⟩, _, hasked, Nat.le_refl _, fun hnone => ?_⟩
    rcases hnone with hblank | hunused
    · rw [hreport, hasText_report (htext'.trans hf.text.symm) hpages, ← hf.report, htext] at hblank
      cases hblank
    · rw [hclient] at hunused
      cases hunused

/-- A run gives the report of sound findings, and asks its model at most
once. -/
theorem run_gives (h : run j s = (.ok r, t)) :
    t.StartsFound s.tools.finds (s.calls.map Call.arguments) ∧
      (∃ f : Findings, r = f.report j ∧ f.Sound j s.tools.finds ∧
        f.text = layerText j (started j s)) ∧
      ∃ asked, t.desk.requests = s.desk.requests ++ asked ∧ asked.length ≤ 1 ∧
        (hasText r = false ∨ j.modelInUse = none → asked = []) := by
  cases hdata : j.data.isEmpty with
  | true =>
    have hnil : j.data = [] := List.isEmpty_iff.1 hdata
    rw [run_nil hnil] at h
    cases h
    refine ⟨s.startsFound_self, ⟨{}, (Findings.report_default j).symm, Findings.sound_default, ?_⟩,
      [], (List.append_nil _).symm, Nat.zero_le _, fun _ => rfl⟩
    rw [layerText, hnil, TextLayer.extract_nil]
    rfl
  | false =>
    obtain ⟨u, book, hstages, rfl⟩ := stages_of_run hdata h
    have hstarted : (started j s).StartsFound s.tools.finds (s.calls.map Call.arguments) :=
      s.startsFound_self.congr rfl rfl
    obtain ⟨hu, hfindings, hasked⟩ := stages_gives hstarted hstages
    exact ⟨hu.congr rfl rfl, hfindings, hasked⟩

/-! ## Coherence -/

/-- How the parts of a report go together, and what a run has done for it. -/
structure Coherent (j : Job) (s : Site) (r : Report) (t : Site) : Prop where
  /-- Pages stand in for a missing text layer. -/
  text : r.text = if layerText j (started j s) = "" then r.pages.text
    else layerText j (started j s)
  pdfText : r.pdfText ≠ "" → Mime.isPdf j.mime = true ∧ r.pdfText = r.text
  pagesUsed : r.pagesUsed = true ↔ r.pages.text ≠ ""
  table : r.pages.table ≠ "" → r.pagesUsed = true
  modelUsed : r.modelUsed = true ↔ r.hints ≠ none
  /-- A layer leaves at most one error, and the layers leave theirs in order. -/
  phases : (r.errors.errors.map (·.phase)).Sublist (LayerKind.all.map LayerKind.name)
  pagesError : ∀ e ∈ r.errors.errors, e.phase = LayerKind.ocr.name → r.pages.text = ""
  modelError : ∀ e ∈ r.errors.errors, e.phase = LayerKind.llm.name → r.hints = none
  warning : r.errors.warnings.length ≤ 1
  /-- A run that was cancelled has not got to its model. -/
  cancelled : ∀ w ∈ r.errors.warnings, w.category = .cancelled ∧ r.hints = none ∧
    ∀ e ∈ r.errors.errors, e.phase ≠ LayerKind.llm.name
  /-- The model is asked at most once, and not without a text. -/
  asked : ∃ asked, t.desk.requests = s.desk.requests ++ asked ∧ asked.length ≤ 1 ∧
    (hasText r = false ∨ j.modelInUse = none → asked = [])
  /-- Nothing but tools that are found was started. -/
  started : t.StartsFound s.tools.finds (s.calls.map Call.arguments)
  /-- A tool that is not found is no failure of its layer. -/
  found : ∀ e ∈ r.errors.errors,
    (e.phase = LayerKind.text.name →
      Mime.isPdf j.mime = true ∧ s.tools.finds .textExtractor = true) ∧
    (e.phase = LayerKind.ocr.name → Tools.FindsReaders s.tools.finds j.mime)
  empty : j.data = [] → r = {} ∧ t = s

namespace Findings

variable {f : Findings} {e : ErrorRecord}

theorem mem_errors_report : e ∈ (f.report j).errors.errors ↔
    e ∈ f.textError ∨ e ∈ f.pagesError ∨ e ∈ f.modelError := by
  simp [report]

theorem mem_warnings_report : e ∈ (f.report j).errors.warnings ↔ e ∈ f.warning := by
  simp [report]

/-- Of a layer there is one record at most. -/
theorem phases_toList {o : Option ErrorRecord} {phase : String} (h : ∀ e ∈ o, e.phase = phase) :
    (o.toList.map (·.phase)).Sublist [phase] := by
  cases o with
  | none => exact List.nil_sublist _
  | some e =>
    rw [← h e rfl]
    exact List.Sublist.refl _

theorem Sound.phases (h : f.Sound j finds) :
    ((f.report j).errors.errors.map (·.phase)).Sublist (LayerKind.all.map LayerKind.name) := by
  have htext := phases_toList fun e he => (h.textError e he).1
  have hpages := phases_toList fun e he => (h.pagesError e he).1
  have hmodel := phases_toList fun e he => (h.modelError e he).1
  rw [report, List.map_append, List.map_append]
  exact (htext.append hpages).append hmodel

/-- An error names the layer that has left it. -/
theorem Sound.mem_of_phase (h : f.Sound j finds) (he : e ∈ (f.report j).errors.errors) :
    (e.phase = LayerKind.text.name → e ∈ f.textError) ∧
      (e.phase = LayerKind.ocr.name → e ∈ f.pagesError) ∧
      (e.phase = LayerKind.llm.name → e ∈ f.modelError) := by
  have hne : LayerKind.text.name ≠ LayerKind.ocr.name ∧
      LayerKind.text.name ≠ LayerKind.llm.name ∧ LayerKind.ocr.name ≠ LayerKind.llm.name := by
    decide
  rcases mem_errors_report.1 he with he | he | he
  · rw [(h.textError e he).1]
    exact ⟨fun _ => he, fun heq => absurd heq hne.1, fun heq => absurd heq hne.2.1⟩
  · rw [(h.pagesError e he).1]
    exact ⟨fun heq => absurd heq.symm hne.1, fun _ => he, fun heq => absurd heq hne.2.2⟩
  · rw [(h.modelError e he).1]
    exact ⟨fun heq => absurd heq.symm hne.2.1, fun heq => absurd heq.symm hne.2.2, fun _ => he⟩

theorem pdfText_report (h : (f.report j).pdfText ≠ "") :
    Mime.isPdf j.mime = true ∧ (f.report j).pdfText = (f.report j).text := by
  cases hpdf : Mime.isPdf j.mime with
  | false => simp [report, hpdf] at h
  | true =>
    simp only [report, hpdf, if_true] at h ⊢
    exact ⟨trivial, (if_neg h).symm⟩

theorem Sound.table (hf : f.Sound j finds) (h : (f.report j).pages.table ≠ "") :
    (f.report j).pagesUsed = true := by
  refine decide_eq_true fun hempty => h ?_
  show f.pages.table = ""
  rw [hf.pages hempty]

theorem Sound.cancelled (hf : f.Sound j finds) {w : ErrorRecord}
    (hw : w ∈ (f.report j).errors.warnings) :
    w.category = .cancelled ∧ (f.report j).hints = none ∧
      ∀ e ∈ (f.report j).errors.errors, e.phase ≠ LayerKind.llm.name := by
  obtain ⟨hcategory, hhints, hmodel⟩ := hf.warning w (mem_warnings_report.1 hw)
  refine ⟨hcategory, hhints, fun e he hphase => ?_⟩
  have hmem := (hf.mem_of_phase he).2.2 hphase
  rw [hmodel] at hmem
  cases hmem

end Findings

/-- Every run that gives a report gives a coherent one.  What a look-up finds is
what is installed, unless something false is known about the tools. -/
theorem coherent_of_run (h : run j s = (.ok r, t)) :
    Coherent j s r t ∧
      (s.tools.Honest → ∀ tool, s.tools.finds tool = s.tools.installed.contains tool.name) := by
  obtain ⟨hstarted, ⟨f, rfl, hf, htext⟩, hasked⟩ := run_gives h
  have hphase := fun e (he : e ∈ (f.report j).errors.errors) => hf.mem_of_phase he
  have hpages : ∀ e ∈ (f.report j).errors.errors, e.phase = LayerKind.ocr.name →
      f.pages = {} ∧ Tools.FindsReaders s.tools.finds j.mime :=
    fun e he hocr => (hf.pagesError e ((hphase e he).2.1 hocr)).2
  have hempty : j.data = [] → f.report j = {} ∧ t = s := by
    intro hdata
    rw [run_nil hdata] at h
    obtain ⟨hreport, hsite⟩ := Prod.mk.inj h
    exact ⟨(Except.ok.inj hreport).symm, hsite.symm⟩
  refine ⟨?_, Tools.finds_of_honest⟩
  exact {
    text := by rw [← htext]; rfl
    pdfText := Findings.pdfText_report
    pagesUsed := decide_eq_true_iff
    table := hf.table
    modelUsed := Option.isSome_iff_ne_none
    phases := hf.phases
    pagesError := fun e he hocr => congrArg Page.text (hpages e he hocr).1
    modelError := fun e he hllm => (hf.modelError e ((hphase e he).2.2 hllm)).2
    warning := Option.length_toList_le
    cancelled := fun w hw => hf.cancelled hw
    asked := hasked
    started := hstarted
    found := fun e he => ⟨fun htext => (hf.textError e ((hphase e he).1 htext)).2,
      fun hocr => (hpages e he hocr).2⟩
    empty := hempty }

/-- A scanned letter. -/
def letter : Job where
  data := [37]
  filename := "a.pdf"
  mime := "application/pdf"
  settings := { model := "m" }
  client := some { model := "m" }

/-- A site that can read the letter's only page, but has no program for its
text layer. The model cannot be reached. -/
def letterSite : Site where
  scratch := "a"
  scripts := [(Tool.rasterizer.name, [{ pages := some 1 }]), (Tool.ocrEngine.name,
    [{ output := [10, 9, 9, 49, 9, 49, 9, 49, 9, 9, 9, 9, 9, 9, 9, 100, 117, 101] }])]
  tools := { installed := [Tool.ocrEngine.name, Tool.rasterizer.name] }
  desk := { replies := [{ answer := .refuses (.plain .connection "down") }] }

/-- The page stands in for the text layer, and the model leaves an error. -/
theorem coherent_of_run_letter :
    ∃ r t, run letter letterSite = (.ok r, t) ∧ Coherent letter letterSite r t ∧
      (r.text, r.pdfText, r.pagesUsed, r.modelUsed) = ("due", "", true, false) ∧
      r.errors.errors.map (·.phase) = ["llm"] ∧ t.calls.length = 2 := by
  have hparts : (match run letter letterSite with
      | (.ok r, t) => ((r.text, r.pdfText, r.pagesUsed, r.modelUsed),
          r.errors.errors.map (·.phase), t.calls.length)
      | (.error _, _) => (("", "", false, false), [], 0)) =
      (("due", "", true, false), ["llm"], 2) := by decide +kernel
  rcases hrun : run letter letterSite with ⟨outcome, t⟩
  rw [hrun] at hparts
  cases outcome with
  | error e =>
    have hcalls : 0 = 2 := congrArg (fun p => p.2.2) hparts
    cases hcalls
  | ok r =>
    obtain ⟨hfields, hrest⟩ := Prod.mk.inj hparts
    obtain ⟨hphases, hcalls⟩ := Prod.mk.inj hrest
    exact ⟨r, t, rfl, (coherent_of_run hrun).1, hfields, hphases, hcalls⟩

end Intake.Batch
