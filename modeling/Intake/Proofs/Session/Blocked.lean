import Intake.Proofs.Batch.Outcome
import Intake.Proofs.Program.Found
import Intake.Proofs.Session.Concord

/-!
# Documents whose text cannot be had

A stored document without text of its own is opened with its text layer.  A
program that fails to give one costs the session its text and nothing else.  A
program that cannot be started at all is another matter: the session is not
opened, where a batch run goes on without the text.

There are three groups.

* Causes.  `extract_eq_error_iff` says when a text layer fails, and how.
* Records.  A record that is taken before a session opens makes no difference to
  the session.
* Opening.  `openDocument_of_failed_text` is the result.
-/

namespace Intake

open Text

/-! ## Causes -/

namespace TextLayer

variable {data : Utf8.Bytes} {mime : String} {bound : Option Float} {s : Site} {e : Fault}

/-- The text extractor gives nothing when it cannot be started, when it ends with
an error, and when it runs past its time. -/
theorem given_eq_error_iff {script : Script} {seconds : Float} :
    given script seconds = .error e ↔ script.startFault = some e ∨
      script.startFault = none ∧
        ((race script.ending (some seconds) none = .ended ∧ script.status ≠ 0 ∧
            e = .tool (.of Tool.textExtractor.name (Utf8.decodeString script.report)
              (some script.status))) ∨
          race script.ending (some seconds) none ≠ .ended ∧
            e = .timeout Tool.textExtractor.name seconds) := by
  rw [given, Script.givenWithin]
  cases hfault : script.startFault with
  | some f => simp [Except.map, eq_comm]
  | none =>
    cases hrace : race script.ending (some seconds) none with
    | ended =>
      by_cases hstatus : script.status = 0
      · simp [Except.map, Script.result, hstatus]
      · simp [Except.map, Script.result, hstatus, request, FailureKind.fault, eq_comm]
    | _ => simp [Except.map, request, eq_comm]

/-- A program that was started fails as a program does. -/
theorem isTool_of_given {script : Script} {seconds : Float} (h : given script seconds = .error e)
    (hstarted : script.startFault ≠ some e) : e.isTool = true := by
  rcases given_eq_error_iff.1 h with hfault | ⟨-, ⟨-, -, rfl⟩ | ⟨-, rfl⟩⟩
  · exact absurd hfault hstarted
  · rfl
  · rfl

/-- Only the text layer of a PDF can fail, and only where its program is there. -/
theorem extract_eq_error_iff (h : s.Patient) :
    (extract data mime bound s).1 = .error e ↔ data.isEmpty = false ∧ Mime.isPdf mime = true ∧
      s.tools.finds .textExtractor = true ∧
        given (s.takeScript Tool.textExtractor.name).1 (boundInForce bound) = .error e := by
  have hpure : ∀ (text : String) (s : Site), ((pure text : Shell String) s).1 = .ok text :=
    fun _ _ => rfl
  rw [extract]
  cases hdata : data.isEmpty with
  | true => simp [hpure]
  | false =>
    cases hpdf : Mime.isPdf mime with
    | false =>
      cases hplain : Mime.isPlainText mime with
      | false => simp [hpure]
      | true => simp [hpure]
    | true =>
      have hasked : Shell.ask (Tools.has .textExtractor) s =
          (.ok (s.tools.finds .textExtractor), (s.ask (Tools.has .textExtractor)).2) := rfl
      have hrests := Site.rests_ask (s := s) (Tools.has .textExtractor)
      rw [if_neg Bool.false_ne_true, if_pos rfl, Shell.bind_of_ok hasked]
      cases s.tools.finds .textExtractor with
      | false => simp [hpure]
      | true =>
        have hpatient : (s.ask (Tools.has .textExtractor)).2.Patient := h.rests hrests
        obtain ⟨hgiven, -, -⟩ := extractPdf_of_patient hpatient (boundInForce bound)
        have hscript : ((s.ask (Tools.has .textExtractor)).2.takeScript Tool.textExtractor.name).1 =
            (s.takeScript Tool.textExtractor.name).1 := by
          rw [Site.takeScript, Site.takeScript, hrests.scripts]
        rw [if_pos rfl, hgiven, hscript]
        simp

end TextLayer

/-! ## Records -/

/-- Two turns that differ in nothing but the records. -/
structure Turn.LooksLike (t t' : Turn) : Prop where
  outcome : t'.outcome = t.outcome
  bench : ∃ records, t'.bench = { t.bench with records := records }

namespace Workbench

/-- A workbench with other records. -/
def withRecords (w : Workbench) (records : List Record) : Workbench := { w with records := records }

theorem knownEntities_records (w : Workbench) : ∃ records,
    w.knownEntities.2 = w.withRecords records := by
  rw [knownEntities]
  split
  · exact ⟨w.records, rfl⟩
  · split
    · exact ⟨w.records, rfl⟩
    · exact ⟨_, rfl⟩

theorem startModel_withRecords (w : Workbench) (records : List Record) (now : Float)
    (client : ChatClient) (s : Session) :
    (w.startModel now client s).LooksLike ((w.withRecords records).startModel now client s) := by
  have hnames : (w.withRecords records).knownEntities.1 = w.knownEntities.1 :=
    Premises.names_prepared w w.capabilities records
  obtain ⟨before, hbefore⟩ := knownEntities_records w
  obtain ⟨after, hafter⟩ := knownEntities_records (w.withRecords records)
  have hturn : ∀ v : Workbench, v.startModel now client s =
      ⟨v.knownEntities.2.withSession (s.modelStarted now v.modelLabel),
        .ok (some (.openReply s.number client
          (Prompt.build v.knownEntities.1 s.source).messages))⟩ := fun v => rfl
  refine ⟨?_, after, ?_⟩
  · rw [hturn, hturn, hnames]
  · rw [hturn, hturn, hbefore, hafter]
    rfl

/-- Records make no difference to the session that opens. -/
theorem open_withRecords (w : Workbench) (records : List Record) (now : Float) (document : Int)
    (filename : String) (data : Utf8.Bytes) (mime text : String) :
    (w.open now document filename data mime text).LooksLike
      ((w.withRecords records).open now document filename data mime text) := by
  have hcancel : (w.withRecords records).cancel = w.cancel.withRecords records := by
    have hsession : (w.withRecords records).session = w.session := rfl
    rw [cancel, cancel, hsession]
    split
    · rfl
    · rfl
  have hbegun : (w.withRecords records).begun = w.begun.withRecords records := by
    rw [begun, hcancel]
    rfl
  cases hreads : w.canReadPages mime with
  | true =>
    have hreads' : (w.withRecords records).canReadPages mime = true := hreads
    rw [open_of_reads hreads, open_of_reads hreads', hbegun]
    exact ⟨rfl, records, rfl⟩
  | false =>
    have hreads' : (w.withRecords records).canReadPages mime = false := hreads
    cases hclient : w.clientInUse with
    | some client =>
      have hclient' : (w.withRecords records).clientInUse = some client := hclient
      rw [open_of_asks hreads hclient, open_of_asks hreads' hclient', hbegun]
      exact startModel_withRecords _ _ _ _ _
    | none =>
      rw [open_of_idle hreads hclient, open_of_idle (w := w.withRecords records) hreads hclient,
        hcancel]
      exact ⟨rfl, _, rfl⟩

/-- To open a session never fails. -/
theorem exists_outcome_open (w : Workbench) (now : Float) (document : Int) (filename : String)
    (data : Utf8.Bytes) (mime text : String) :
    ∃ c, (w.open now document filename data mime text).outcome = .ok c := by
  cases hreads : w.canReadPages mime with
  | true =>
    rw [open_of_reads hreads]
    exact ⟨_, rfl⟩
  | false =>
    cases hclient : w.clientInUse with
    | some client =>
      rw [open_of_asks hreads hclient]
      exact ⟨_, rfl⟩
    | none =>
      rw [open_of_idle hreads hclient]
      exact ⟨_, rfl⟩

end Workbench

theorem Site.clock_records (records : List Record) (s : Site) :
    (records.foldl (fun (site : Site) r => site.note r.source r.level r.text) s).book.clock =
      s.book.clock := by
  induction records generalizing s with
  | nil => rfl
  | cons r rest ih => exact ih (s.note r.source r.level r.text)

theorem Site.clock_ask {α : Type} (question : StateM Tools α) (s : Site) :
    (s.ask question).2.book.clock = s.book.clock := by
  have hrecords := clock_records ((((question s.tools).2.lookups.drop
    s.tools.lookups.length).filter fun t => (question s.tools).2.known.lookup t == some false).map
      fun t =>
        ⟨.tools, .debug, t.name ++ " not found on PATH, related extraction layer disabled"⟩) s
  rw [List.foldl_map] at hrecords
  exact hrecords

namespace Workshop

variable {s t : Workshop} {id : Int} {d : Document} {data : Utf8.Bytes} {e : Fault}

/-- Two workshops in which the same sessions open, whatever their records. -/
structure OpensLike (s t : Workshop) : Prop where
  bench : ∃ records, t.bench = s.bench.withRecords records
  surveyed : t.surveyed = s.surveyed
  tools : t.site.tools = s.site.tools
  clock : t.site.book.clock = s.site.book.clock

theorem OpensLike.survey (h : s.OpensLike t) (mime : String) :
    (∃ records, (survey mime t).2.bench = (survey mime s).2.bench.withRecords records) ∧
      (survey mime t).2.site.book.clock = (survey mime s).2.site.book.clock := by
  obtain ⟨records, hbench⟩ := h.bench
  have hanswer : (t.site.ask Tools.capabilities).1 = (s.site.ask Tools.capabilities).1 := by
    show (Tools.capabilities t.site.tools).1 = (Tools.capabilities s.site.tools).1
    rw [h.tools]
  rw [Workshop.survey, Workshop.survey, h.surveyed]
  split
  · exact ⟨h.bench, h.clock⟩
  · refine ⟨⟨records, ?_⟩, ?_⟩
    · show { t.bench with capabilities := (t.site.ask Tools.capabilities).1 } = _
      rw [hanswer, hbench]
      rfl
    · show (t.site.ask Tools.capabilities).2.book.clock =
        (s.site.ask Tools.capabilities).2.book.clock
      rw [Site.clock_ask, Site.clock_ask, h.clock]

theorem OpensLike.turnOf_open (h : s.OpensLike t) (document : Int) (filename : String)
    (data : Utf8.Bytes) (mime text : String) :
    (s.turnOf (Workshop.open document filename data mime text)).LooksLike
      (t.turnOf (Workshop.open document filename data mime text)) := by
  obtain ⟨⟨records, hbench⟩, hclock⟩ := h.survey mime
  rw [Workshop.turnOf_open, Workshop.turnOf_open, hbench, hclock]
  exact Workbench.open_withRecords _ records _ document filename data mime text

/-! ## Opening -/

/-- Records that are taken at the workbench change nothing but the logbook. -/
theorem opensLike_work {α : Type} {f : Float → Workbench → Workbench × α} {records : List Record}
    (hf : (f s.site.book.clock s.bench).1 = s.bench.withRecords records) :
    s.OpensLike (work f s).2 :=
  ⟨⟨records, hf⟩, rfl, Site.tools_records _ _, Site.clock_records _ _⟩

/-- A failed program leaves a record and no text. -/
theorem loaded_of_isTool (hfails : (textOf d data s).1 = .error e) (he : e.isTool = true) :
    (s.loaded d data).1 = .ok "" ∧ (textOf d data s).2.OpensLike (s.loaded d data).2 := by
  have husable : ∀ w : Workbench, w.usableText d (.error e) = (w.note .session .warning
      ("Text extraction failed for " ++ d.fileName ++ ": " ++ e.message), .ok "") := by
    intro w
    rw [Workbench.usableText, if_pos he]
  refine ⟨?_, ?_⟩
  · show ((textOf d data s).2.bench.usableText d (textOf d data s).1).2 = _
    rw [hfails, husable]
  · rw [loaded, hfails]
    exact opensLike_work (by rw [husable]; rfl)

/-- Any other fault is passed on. -/
theorem loaded_of_not_isTool (hfails : (textOf d data s).1 = .error e) (he : e.isTool = false) :
    s.loaded d data = (.error e, (textOf d data s).2) := by
  have husable : ∀ w : Workbench, w.usableText d (.error e) = (w, .error e) := by
    intro w
    rw [Workbench.usableText, if_neg (by simp [he])]
  rw [loaded, hfails, work]
  simp only [husable, List.drop_length, List.foldl_nil]

/-- The fault of a text layer that could not be had, and where it comes from. -/
theorem given_of_textOf (hempty : d.extractedText.isEmpty = true)
    (hpresent : s.site.abandoned = false) : (textOf d data s).1 = .error e ↔
      data.isEmpty = false ∧ Mime.isPdf d.mimeType = true ∧
        s.site.tools.finds .textExtractor = true ∧
          TextLayer.given (s.site.takeScript Tool.textExtractor.name).1
            (TextLayer.boundInForce (some s.bench.settings.textTimeout)) = .error e := by
  rw [textOf, if_pos hempty]
  exact TextLayer.extract_eq_error_iff (Site.patient_unsignalled hpresent)

/-- A batch run without a cancellation meets the fault that the session meets, and
goes on with a record of it. -/
theorem textRun_of_textOf (hempty : d.extractedText.isEmpty = true)
    (hpresent : s.site.abandoned = false) (hfails : (textOf d data s).1 = .error e)
    (he : e.IsOrdinary) (client : Option ChatClient) : ∃ t,
      Batch.textRun (s.bench.job d data client)
        (Batch.started (s.bench.job d data client) { s.site with signal := none }) =
          (.ok (! e.isCancelled, Batch.recordFailure {}
            (Batch.faultRecord (s.bench.job d data client) .text e)), t) := by
  have hpatient : (Batch.begun "text" d.mimeType (Batch.started (s.bench.job d data client)
      { s.site with signal := none })).Patient :=
    (Site.patient_unsignalled hpresent).rests ⟨rfl, rfl, rfl, rfl, rfl, rfl⟩
  have hlayer := (TextLayer.extract_eq_error_iff hpatient).2
    ((given_of_textOf hempty hpresent).1 hfails)
  rcases hextract : TextLayer.extract data d.mimeType (some s.bench.settings.textTimeout)
    (Batch.begun "text" d.mimeType (Batch.started (s.bench.job d data client)
      { s.site with signal := none })) with ⟨outcome, t⟩
  rw [hextract] at hlayer
  obtain rfl : outcome = .error e := hlayer
  exact Batch.textRun_of_fault hextract he

/-- Where the text of a stored document cannot be had, it depends on the cause what
becomes of the session.  After a program that failed it opens as it does for a
document without text.  A program that could not be started keeps it from opening,
and the workbench is as before.  A batch run goes on without the text either way. -/
theorem openDocument_of_failed_text (hload : s.bench.load id = .ok (d, data))
    (hempty : d.extractedText.isEmpty = true) (hpresent : s.site.abandoned = false)
    (hfails : (textOf d data s).1 = .error e) :
    (e.isTool = true → (∃ c, (openDocument id s).1 = .ok c) ∧
      ((textOf d data s).2.turnOf
        (Workshop.open d.id d.fileName data d.mimeType "")).LooksLike
          (s.turnOf (openDocument id))) ∧
    (e.isTool = false → (s.turnOf (openDocument id)) = ⟨s.bench, .error e⟩ ∧
      (s.site.takeScript Tool.textExtractor.name).1.startFault = some e) ∧
    (e.IsOrdinary → e.isCancelled = false → ∀ client, ∃ t,
      Batch.textRun (s.bench.job d data client)
        (Batch.started (s.bench.job d data client) { s.site with signal := none }) =
          (.ok (true, Batch.recordFailure {}
            (Batch.faultRecord (s.bench.job d data client) .text e)), t)) := by
  refine ⟨fun he => ?_, fun he => ⟨?_, ?_⟩, fun hordinary hcancelled client => ?_⟩
  · obtain ⟨htext, hlike⟩ := loaded_of_isTool hfails he
    have hloaded : s.loaded d data = (.ok "", (s.loaded d data).2) := Prod.ext htext rfl
    have hopened := openDocument_of_loaded hload hloaded
    have hturn : s.turnOf (openDocument id) = (s.loaded d data).2.turnOf
        (Workshop.open d.id d.fileName data d.mimeType "") := by
      rw [turnOf, hopened]
      rfl
    refine ⟨?_, ?_⟩
    · rw [hopened]
      exact Workbench.exists_outcome_open _ _ _ _ _ _ _
    · rw [hturn]
      exact hlike.turnOf_open _ _ _ _ _
  · rw [turnOf, openDocument_of_refused hload (loaded_of_not_isTool hfails he), bench_textOf]
  · obtain ⟨-, -, -, hgiven⟩ := (given_of_textOf hempty hpresent).1 hfails
    by_contra hstarted
    have htool := TextLayer.isTool_of_given hgiven hstarted
    rw [he] at htool
    exact Bool.noConfusion htool
  · obtain ⟨t, hrun⟩ := textRun_of_textOf hempty hpresent hfails hordinary client
    rw [hcancelled] at hrun
    exact ⟨t, hrun⟩

/-- A PDF without stored text. -/
def paper : Document where
  id := 1
  fileName := "a.pdf"
  mimeType := "application/pdf"

/-- A workshop where that document is stored and the text extractor does this. -/
def paperShop (script : Script) : Workshop where
  bench := { store := some { documents := [paper], blobs := [(1, [37])] }
             client := some { model := "m" }, settings := { model := "m" } }
  site := { tools := { installed := [Tool.textExtractor.name] }
            scripts := [(Tool.textExtractor.name, [script])] }

theorem load_paper (script : Script) : (paperShop script).bench.load 1 = .ok (paper, [37]) := by
  have hname : (FileName.lastName paper.fileName).contains '\x00' = false := by
    rw [String.contains_char_eq]
    decide +kernel
  have hcopy : Store.copyOut { documents := [paper], blobs := [(1, [37])] } 1 =
      .ok (Number.intText 1 ++ "-" ++ FileName.lastName paper.fileName, [37]) := by
    show (if (FileName.lastName paper.fileName).contains '\x00' then _ else _) = _
    rw [if_neg (by simp [hname])]
    rfl
  rw [Workbench.load]
  show (Store.copyOut _ 1 >>= _ : Except Fault _) = _
  rw [hcopy]
  rfl

theorem textOf_paper (script : Script) {e : Fault}
    (hgiven : TextLayer.given script (TextLayer.boundInForce
      (some (paperShop script).bench.settings.textTimeout)) = .error e) :
    (textOf paper [37] (paperShop script)).1 = .error e := by
  have hpdf : Mime.isPdf paper.mimeType = true := by decide
  exact (given_of_textOf rfl rfl).2 ⟨rfl, hpdf, rfl, hgiven⟩

theorem openDocument_of_failed_paper : ∃ e, (textOf paper [37] (paperShop { status := 1 })).1 =
      .error e ∧ e.isTool = true ∧ (∃ c, (openDocument 1 (paperShop { status := 1 })).1 = .ok c) ∧
    ((textOf paper [37] (paperShop { status := 1 })).2.turnOf
      (Workshop.open paper.id paper.fileName [37] paper.mimeType "")).LooksLike
        ((paperShop { status := 1 }).turnOf (openDocument 1)) := by
  have hfails := textOf_paper { status := 1 }
    (TextLayer.given_eq_error_iff.2 (Or.inr ⟨rfl, Or.inl ⟨rfl, by decide, rfl⟩⟩))
  obtain ⟨hopens, -⟩ := openDocument_of_failed_text (load_paper _) rfl rfl hfails
  exact ⟨_, hfails, rfl, hopens rfl⟩

/-- The text extractor cannot be started. -/
def unstartable : Script := { startFault := some (.plain .os "exec failed") }

/-- A session would open without the text, and it is kept from opening. -/
theorem openDocument_of_unstarted_paper :
    (textOf paper [37] (paperShop unstartable)).1 = .error (.plain .os "exec failed") ∧
      (openDocument 1 (paperShop unstartable)).1 = .error (.plain .os "exec failed") ∧
      ∃ c, ((textOf paper [37] (paperShop unstartable)).2.turnOf
        (Workshop.open paper.id paper.fileName [37] paper.mimeType "")).command? = some c := by
  have hfails := textOf_paper unstartable (TextLayer.given_eq_error_iff.2 (Or.inl rfl))
  have hrefused := openDocument_of_refused (load_paper unstartable)
    (loaded_of_not_isTool hfails rfl)
  have hopens : ((textOf paper [37] (paperShop unstartable)).2.turnOf (Workshop.open paper.id
      paper.fileName [37] paper.mimeType "")).command?.isSome = true := by
    decide +kernel
  exact ⟨hfails, congrArg Prod.fst hrefused, Option.isSome_iff_exists.1 hopens⟩

end Workshop
end Intake
