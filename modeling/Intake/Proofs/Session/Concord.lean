import Intake.Proofs.Batch.Asked
import Intake.Proofs.Session.Prompting

/-!
# Batch runs and sessions

A batch run and a session for the same stored document tell their models the
same, where the same programs are installed and will do the same.

There are four groups.

* Briefs.  `Job.brief` is what a session settles when it opens, and
  `messages_of_reachesModel` says that a batch run tells its model that.
* Texts.  `Workshop.Fetched` is a workshop once the text of a document was
  looked for.
* Opening.  `keeps_opened` says that the premises keep to the brief once the
  session is open.
* Agreement.  `messages_of_run_and_reaches` is the result.
-/

namespace Intake

open Text

/-! ## Briefs -/

/-- The batch run for a stored document, with what the workbench knows. -/
def Workbench.job (w : Workbench) (d : Document) (data : Utf8.Bytes)
    (client : Option ChatClient) : Job where
  data := data
  filename := d.fileName
  mime := d.mimeType
  settings := w.settings
  client := client
  entities := w.knownEntities.1

namespace Job

variable {j : Job} {installed : List String} {s : Site}

/-- The text of the document, where it could be had. -/
def foundText (j : Job) (installed : List String) (s : Site) : String :=
  (TextLayer.found installed (s.takeScript Tool.textExtractor.name).1 j.data j.mime
    (some j.settings.textTimeout)).toOption.getD ""

/-- A site once the text of the document was looked for. -/
def searched (j : Job) (installed : List String) (s : Site) : Site :=
  s.textRan (TextLayer.runs installed j.mime)
    (TextLayer.boundInForce (some j.settings.textTimeout))

/-- Whether the pages of the document are read. -/
def readsPages (j : Job) (installed : List String) : Bool :=
  j.hasPages && Tools.canRead installed j.mime

/-- What the session of a number settles when it opens for the document. -/
def brief (j : Job) (installed : List String) (s : Site) (number : Nat) : Brief where
  number := number
  names := j.entities
  source := j.plainSource (j.foundText installed s)
  outcome :=
    if j.readsPages installed then
      some (PageReading.read j.data j.mime j.settings.maxPages (j.searched installed s)).1
    else none

/-- A batch run that gets to its model tells it what a session settles. -/
theorem messages_of_reachesModel {client : ChatClient} {r : Report} {t : Site} (hs : s.Orderly)
    (he : s.Equipped installed) (h : Batch.ReachesModel j s client r t) (number : Nat) :
    (j.prompt r).messages = (j.brief installed s number).messages := by
  obtain ⟨u, hrests, hprompt⟩ := Batch.prompt_of_reachesModel hs he h
  have hread := (PageReading.respects_read j.data j.mime j.settings.maxPages _ _
    hrests.worksAlike.toReadsAlike).1
  rw [hprompt, hread]
  rfl

end Job

/-! ## Texts -/

namespace Workshop

variable {installed : List String} {s t u : Workshop} {d : Document} {data : Utf8.Bytes}

/-- The text of a document was looked for, and nothing else has changed but
the workbench. -/
structure Fetched (j : Job) (installed : List String) (s t : Workshop) : Prop where
  workers : t.workers = s.workers
  startFault : t.startFault = s.startFault
  orderly : t.site.Orderly
  scripts : t.site.scripts = (j.searched installed s.site).scripts
  desk : t.site.desk = s.site.desk

theorem Fetched.of_rests {j : Job} (h : Fetched j installed s t) (hworkers : u.workers = t.workers)
    (hstart : u.startFault = t.startFault) (hsite : t.site.Rests u.site) :
    Fetched j installed s u :=
  ⟨hworkers.trans h.workers, hstart.trans h.startFault, h.orderly.rests hsite,
    hsite.scripts.trans h.scripts, hsite.desk.trans h.desk⟩

/-- A workshop in which nothing is under way.  The cancellation that a caller
may have does not fire, and what is known about the tools is true. -/
structure AtRest (installed : List String) (s : Workshop) : Prop where
  sound : s.bench.Sound False []
  ended : ∀ w ∈ s.workers, w.stage = .over
  starts : s.startFault = none
  orderly : s.site.Orderly
  equipped : s.site.Equipped installed
  surveyed : s.surveyed = true → s.bench.capabilities = Tools.surveyed installed

theorem fetched_textOf (h : s.AtRest installed) (hempty : d.extractedText.isEmpty = true)
    (hdata : data.isEmpty = false) (client : Option ChatClient) :
    (textOf d data s).1 = TextLayer.found installed
        (s.site.takeScript Tool.textExtractor.name).1 data d.mimeType
        (some s.bench.settings.textTimeout) ∧
      Fetched (s.bench.job d data client) installed s (textOf d data s).2 ∧
      (textOf d data s).2 = { s with site := (textOf d data s).2.site } ∧
      (textOf d data s).2.site.Equipped installed := by
  have horderly : Site.Orderly { s.site with signal := none } := h.orderly.unsignalled
  have hequipped : Site.Equipped installed { s.site with signal := none } := h.equipped.congr rfl
  obtain ⟨hfound, hrests, hafter⟩ := TextLayer.extract_of_orderly horderly hequipped hdata
    d.mimeType (some s.bench.settings.textTimeout)
  obtain ⟨hsignal, habandoned, hdesk⟩ := Site.frames_textRan s.site
    (TextLayer.runs installed d.mimeType)
    (TextLayer.boundInForce (some s.bench.settings.textTimeout))
  obtain ⟨-, habandoned', hdesk'⟩ := Site.frames_textRan { s.site with signal := none }
    (TextLayer.runs installed d.mimeType)
    (TextLayer.boundInForce (some s.bench.settings.textTimeout))
  have hscripts : (TextLayer.extract data d.mimeType (some s.bench.settings.textTimeout)
      { s.site with signal := none }).2.scripts =
        ((s.bench.job d data client).searched installed s.site).scripts :=
    hrests.scripts.trans
      (Site.scripts_textRan (s := { s.site with signal := none }) (t := s.site) rfl _ _)
  rw [textOf, if_pos hempty]
  refine ⟨hfound, ⟨rfl, rfl, ?_, hscripts, hrests.desk.trans hdesk'⟩, rfl, hafter.congr rfl⟩
  refine (h.orderly.textRan _ _).congr ?_ hsignal.symm hscripts
  exact (hrests.abandoned.trans habandoned').trans habandoned.symm

/-- Only the records of a workbench change when a text could not be had. -/
theorem bench_usableText (w : Workbench) (d : Document) (text : Except Fault String) :
    (w.usableText d text).1 = { w with records := (w.usableText d text).1.records } := by
  cases text with
  | ok text => rfl
  | error e =>
    rw [Workbench.usableText]
    split
    · rfl
    · rfl

/-- A text that could not be had counts as none. -/
theorem eq_of_usableText {w : Workbench} {found : Except Fault String} {text : String}
    (h : (w.usableText d found).2 = .ok text) : text = found.toOption.getD "" := by
  cases found with
  | ok text' => exact (Except.ok.inj h).symm
  | error e =>
    rw [Workbench.usableText] at h
    split at h
    · exact (Except.ok.inj h).symm
    · cases h

/-- The text of a stored document, where a session is opened for it. -/
theorem fetched_loaded (h : s.AtRest installed) (hempty : d.extractedText.isEmpty = true)
    (hdata : data.isEmpty = false) (client : Option ChatClient) {text : String}
    (htext : (s.loaded d data).1 = .ok text) :
    text = (s.bench.job d data client).foundText installed s.site ∧
      Fetched (s.bench.job d data client) installed s (s.loaded d data).2 ∧
      (s.loaded d data).2.bench = { s.bench with records := (s.loaded d data).2.bench.records } ∧
      (s.loaded d data).2.surveyed = s.surveyed ∧
      (s.loaded d data).2.site.Equipped installed := by
  obtain ⟨hfound, hfetched, hrest, hequipped⟩ := fetched_textOf h hempty hdata client
  have hrests := (rests_work (fun _ bench => bench.usableText d (textOf d data s).1)
    (textOf d data s).2).2
  have hsurveyed : (textOf d data s).2.surveyed = s.surveyed := by rw [hrest]
  refine ⟨?_, hfetched.of_rests rfl rfl hrests, ?_, hsurveyed,
    hequipped.congr (Site.tools_records _ _)⟩
  · rw [eq_of_usableText htext, hfound]
    rfl
  · have hbench : (s.loaded d data).2.bench = (s.bench.usableText d (textOf d data s).1).1 := by
      rw [← bench_textOf d data s]
      rfl
    rw [hbench]
    exact bench_usableText _ _ _

/-- What is known about the tools when a session opens is true. -/
theorem canReadPages_survey (hsurveyed : s.surveyed = true →
      s.bench.capabilities = Tools.surveyed installed) (he : s.site.Equipped installed)
    (mime : String) : (survey mime s).2.bench.canReadPages mime =
      ((Mime.isPdf mime || Mime.isImage mime) && Tools.canRead installed mime) := by
  have hknown : ∀ w : Workbench, w.capabilities = Tools.surveyed installed → w.canReadPages mime =
      ((Mime.isPdf mime || Mime.isImage mime) && Tools.canRead installed mime) := by
    intro w hw
    rw [Workbench.canReadPages, hw, Tools.canRead]
    cases hpdf : Mime.isPdf mime with
    | true =>
      rw [Mime.isImage_eq_false_of_isPdf hpdf]
      simp [Tools.surveyed, Capabilities.readsPdf]
    | false => simp [Tools.surveyed, Capabilities.readsImages]
  rw [survey]
  cases hpages : Mime.isPdf mime || Mime.isImage mime with
  | false =>
    obtain ⟨hpdf, himage⟩ := Bool.or_eq_false_iff.1 hpages
    rw [if_pos (by simp), Bool.false_and, Workbench.canReadPages, hpdf, himage]
    rfl
  | true =>
    rw [← hpages]
    split
    · rename_i hdone
      exact hknown _ (hsurveyed (by simpa [hpages] using hdone))
    · exact hknown _ (he.ask Tools.answers_capabilities).1

theorem rests_survey (mime : String) (s : Workshop) :
    (survey mime s).2.workers = s.workers ∧ (survey mime s).2.startFault = s.startFault ∧
      s.site.Rests (survey mime s).2.site ∧ (survey mime s).2.bench =
        { s.bench with capabilities := (survey mime s).2.bench.capabilities } := by
  rw [survey]
  split
  · exact ⟨rfl, rfl, .rfl, rfl⟩
  · exact ⟨rfl, rfl, Site.rests_ask (s := s.site) Tools.capabilities, rfl⟩

/-- A session that is opened for a stored document is opened with the text of
the document. -/
theorem opened_of_ok {id : Int} {c? : Option Command} (h : s.AtRest installed)
    (hload : s.bench.load id = .ok (d, data)) (hempty : d.extractedText.isEmpty = true)
    (hdata : data.isEmpty = false) (client : Option ChatClient)
    (hopen : (openDocument id s).1 = .ok c?) : ∃ now capabilities records,
      Workbench.canReadPages { s.bench with capabilities := capabilities, records := records }
          d.mimeType = (s.bench.job d data client).readsPages installed ∧
        s.turnOf (openDocument id) =
          Workbench.open { s.bench with capabilities := capabilities, records := records } now d.id
            d.fileName data d.mimeType ((s.bench.job d data client).foundText installed s.site) ∧
        Fetched (s.bench.job d data client) installed s (openDocument id s).2 := by
  rcases hloaded : s.loaded d data with ⟨outcome, t⟩
  cases outcome with
  | error e =>
    rw [openDocument_of_refused hload hloaded] at hopen
    cases hopen
  | ok text =>
    obtain ⟨htext, hfetched, hbench, hsurveyed, hequipped⟩ :=
      fetched_loaded h hempty hdata client (congrArg Prod.fst hloaded)
    rw [hloaded] at hfetched hbench hsurveyed hequipped
    dsimp only at hfetched hbench hsurveyed hequipped
    obtain ⟨hworkers, hstart, hrests, hsurvey⟩ := rests_survey d.mimeType t
    have hdone : t.surveyed = true → t.bench.capabilities = Tools.surveyed installed := by
      intro hdone
      rw [hbench]
      exact h.surveyed (hsurveyed ▸ hdone)
    have hreads := canReadPages_survey hdone hequipped d.mimeType
    have hknown : (survey d.mimeType t).2.bench = { s.bench with
        capabilities := (survey d.mimeType t).2.bench.capabilities
        records := t.bench.records } := hsurvey.trans (by rw [hbench])
    refine ⟨(survey d.mimeType t).2.site.book.clock,
      (survey d.mimeType t).2.bench.capabilities, t.bench.records, ?_, ?_, ?_⟩
    · rw [← hknown]
      exact hreads
    · rw [turnOf, openDocument_of_loaded hload hloaded, ← hknown, ← htext]
      exact turnOf_open t d.id d.fileName data d.mimeType text
    · rw [openDocument_of_loaded hload hloaded]
      have hturn := (rests_work (fun now bench =>
        let turn := bench.open now d.id d.fileName data d.mimeType text
        (turn.bench, turn.outcome)) (survey d.mimeType t).2).2
      exact (hfetched.of_rests hworkers hstart hrests).of_rests rfl rfl hturn

end Workshop

/-! ## Opening -/

theorem Job.foundText_congr {s t : Site} (h : s.scripts = t.scripts) (j : Job)
    (installed : List String) : j.foundText installed s = j.foundText installed t := by
  rw [foundText, foundText, Site.takeScript, Site.takeScript, h]

namespace Premises

variable {installed : List String} {shop : Workshop} {id : Int} {d : Document} {data : Utf8.Bytes}
  {c? : Option Command} {s : Site} {b : Brief}

/-- Nothing is under way but the command. -/
theorem mem_items_after {work : StateM Workshop (Except Fault (Option Command))} {t : Task}
    (ht : t ∈ (after ⟨shop, {}⟩ work).office.items) :
    ∃ c, (shop.turnOf work).command? = some c ∧ t = .fresh c := by
  have hperm := Office.items_after ⟨shop.bench, {}⟩ (shop.turnOf work)
  have hmem : t ∈ ((shop.turnOf work).command?.map Task.fresh).toList ++ [] :=
    hperm.mem_iff.1 ht
  rw [List.append_nil, Option.mem_toList, Option.map_eq_some_iff] at hmem
  obtain ⟨c, hc, rfl⟩ := hmem
  exact ⟨c, hc, rfl⟩

/-- What work is to do so that the premises keep to a brief from then on. -/
theorem keeps_after {work : StateM Workshop (Except Fault (Option Command))}
    (hsound : (after ⟨shop, {}⟩ work).office.Sound False)
    (hnames : (after ⟨shop, {}⟩ work).shop.bench.knownEntities.1 = b.names)
    (hdesk : (after ⟨shop, {}⟩ work).shop.site.desk = shop.site.desk)
    (hcommand : ∀ c ∈ (shop.turnOf work).command?, c.Fits b)
    (hsession : ∀ x ∈ (shop.turnOf work).bench.session,
      x.Fits b ∨ (after ⟨shop, {}⟩ work).ReadsFor b x) :
    (after ⟨shop, {}⟩ work).Keeps b shop.site.desk.requests := by
  refine ⟨hsound, hnames, ⟨[], ?_, nofun⟩, fun t ht => ?_, hsession⟩
  · rw [hdesk, List.append_nil]
  · obtain ⟨c, hc, rfl⟩ := mem_items_after ht
    exact Task.fits_fresh (hcommand c hc)

theorem names_prepared (w : Workbench) (capabilities : Capabilities) (records : List Record) :
    (Workbench.knownEntities { w with capabilities := capabilities, records := records }).1 =
      w.knownEntities.1 := by
  rw [Workbench.names_knownEntities, Workbench.names_knownEntities]

/-- A session that asks its model at once fits the brief. -/
theorem fits_open_of_not_reads {w : Workbench} (now : Float) (data : Utf8.Bytes) (text : String)
    (hreads : w.canReadPages d.mimeType = false) (hnames : w.knownEntities.1 = b.names)
    (hnumber : w.opened + 1 = b.number) (houtcome : b.outcome = none)
    (hsource : (w.newSession d.id d.fileName data d.mimeType text).source = b.source) :
    (w.open now d.id d.fileName data d.mimeType text).Fits b := by
  cases hclient : w.clientInUse with
  | none =>
    have hidle : (w.open now d.id d.fileName data d.mimeType text).bench.session = none :=
      Workbench.session_open_of_idle hreads hclient now
    rcases Workbench.open_cases w now d.id d.fileName data d.mimeType text with
      ⟨-, -, hcommand⟩ | hcontinues
    · refine ⟨fun x hx => ?_, fun c hc => ?_⟩
      · cases hidle.symm.trans hx
      · cases hcommand.symm.trans hc
    · obtain ⟨x, _, hx, -⟩ := hcontinues.session
      cases hidle.symm.trans hx
  | some client =>
    rw [Workbench.open_of_asks hreads hclient]
    refine Workbench.fits_startModel ?_ ⟨hnumber, ?_, StepStatus.noConfusion⟩ now client
    · rw [← hnames, Workbench.names_knownEntities, Workbench.names_knownEntities,
        ← (Workbench.spares_cancel w).store]
      rfl
    · rw [hsource, Brief.told, houtcome]
      rfl

/-- Once a session is open for a stored document the premises keep to its
brief. -/
theorem keeps_opened (hshop : shop.AtRest installed) (hs : s.Orderly)
    (hscripts : s.scripts = shop.site.scripts) (hload : shop.bench.load id = .ok (d, data))
    (hempty : d.extractedText.isEmpty = true) (hdata : data.isEmpty = false)
    (client : Option ChatClient) (hopen : (Workshop.openDocument id shop).1 = .ok c?) :
    (after ⟨shop, {}⟩ (Workshop.openDocument id)).Keeps
      ((shop.bench.job d data client).brief installed s (shop.bench.opened + 1))
      shop.site.desk.requests := by
  obtain ⟨now, capabilities, records, hreads, hturn, hfetched⟩ :=
    Workshop.opened_of_ok hshop hload hempty hdata client hopen
  rw [← Job.foundText_congr hscripts] at hturn
  have hsound : (after ⟨shop, {}⟩ (Workshop.openDocument id)).office.Sound False :=
    Office.sound_opens (o := ⟨shop.bench, {}⟩) hshop.sound (.stored id) rfl
  have hnames : (shop.turnOf (Workshop.openDocument id)).bench.knownEntities.1 =
      shop.bench.knownEntities.1 := by
    rw [hturn, Workbench.names_knownEntities, Workbench.names_knownEntities,
      (Workbench.spares_open _ _ _ _ _ _ _).1]
  cases hpages : (shop.bench.job d data client).readsPages installed with
  | false =>
    have houtcome : ((shop.bench.job d data client).brief installed s
        (shop.bench.opened + 1)).outcome = none := by
      rw [Job.brief, hpages]
      rfl
    have hfits := fits_open_of_not_reads now data
      ((shop.bench.job d data client).foundText installed s) (hreads.trans hpages)
      (names_prepared _ _ _) rfl houtcome rfl
    rw [← hturn] at hfits
    exact keeps_after hsound hnames hfetched.desk hfits.command fun x hx =>
      Or.inl (hfits.session x hx)
  | true =>
    have houtcome : ((shop.bench.job d data client).brief installed s
        (shop.bench.opened + 1)).outcome = some (PageReading.read data d.mimeType
          shop.bench.settings.maxPages ((shop.bench.job d data client).searched installed s)).1 := by
      rw [Job.brief, hpages]
      rfl
    have hasPages : Mime.isPdf d.mimeType = true ∨ Mime.isImage d.mimeType = true :=
      Bool.or_eq_true_iff.1 (Bool.and_eq_true_iff.1 hpages).1
    rw [Workbench.open_of_reads (hreads.trans hpages)] at hturn
    refine keeps_after hsound hnames hfetched.desk ?_ ?_
    · rw [hturn]
      intro c hc
      obtain rfl := Option.some.inj hc
      exact Command.fits_of_layer rfl fun _ _ _ => Command.noConfusion
    · rw [hturn]
      intro x hx
      obtain rfl := Option.some.inj hx
      refine Or.inr ⟨⟨rfl, rfl, rfl, rfl⟩, _, houtcome, fun t ht _ => ?_⟩
      obtain ⟨c, hc, rfl⟩ := mem_items_after ht
      rw [hturn] at hc
      obtain rfl := Option.some.inj hc
      refine .begins ⟨?_, hfetched.startFault.trans hshop.starts, hasPages, hfetched.orderly,
        _, hs.textRan _ _, ?_, rfl⟩
      · exact fun v hv => hshop.ended v (hfetched.workers ▸ hv)
      · exact (Site.scripts_textRan hscripts _ _).trans hfetched.scripts.symm

/-! ## Agreement -/

/-- A batch run for a stored document and a session that was opened for it tell
their models the same, whenever each of them gets that far.  The same programs
are installed for both and will do the same. -/
theorem messages_of_run_and_reaches {p : Premises} (hshop : shop.AtRest installed)
    (hs : s.Orderly) (he : s.Equipped installed) (hscripts : s.scripts = shop.site.scripts)
    (hload : shop.bench.load id = .ok (d, data)) (hempty : d.extractedText.isEmpty = true)
    (hdata : data ≠ []) (client : Option ChatClient)
    (hopen : (Workshop.openDocument id shop).1 = .ok c?)
    (hrun : (after ⟨shop, {}⟩ (Workshop.openDocument id)).Reaches p) :
    ∃ sent asked messages,
      (Batch.run (shop.bench.job d data client) s).2.desk.requests = s.desk.requests ++ sent ∧
      p.shop.site.desk.requests = shop.site.desk.requests ++ asked ∧
      ∀ q ∈ sent ++ asked, q.messages = messages := by
  have hne : data.isEmpty = false := List.isEmpty_eq_false_iff.2 hdata
  have hkeeps := keeps_opened hshop hs hscripts hload hempty hne client hopen
  obtain ⟨asked, hasked, hall⟩ := (keeps_of_reaches hkeeps hrun).asked
  let told := ((shop.bench.job d data client).brief installed s (shop.bench.opened + 1)).messages
  rcases Batch.asks_of_run (shop.bench.job d data client) s with
    hquiet | ⟨client', r, t, hreach, hsent⟩
  · exact ⟨[], asked, told, by rw [hquiet, List.append_nil], hasked, hall⟩
  · refine ⟨_, asked, told, hsent, hasked, fun q hq => ?_⟩
    rcases List.mem_append.1 hq with hq | hq
    · rw [List.mem_singleton.1 hq]
      exact Job.messages_of_reachesModel hs he hreach (shop.bench.opened + 1)
    · exact hall q hq

/-- A picture of a bill. -/
def bill : Document := { id := 1, fileName := "bill.png", mimeType := "image/png" }

/-- A site where the bill says when it is due. -/
def billSite (folder : String) : Site where
  scratch := folder
  scripts := [(Tool.ocrEngine.name,
    [{ output := [10, 9, 9, 49, 9, 49, 9, 49, 9, 9, 9, 9, 9, 9, 9, 100, 117, 101] }])]
  tools := { installed := [Tool.ocrEngine.name] }

/-- A store that holds the bill. -/
def billStore : Store := { documents := [bill], blobs := [(1, [137])] }

/-- A workshop with the store and a model. -/
def billShop : Workshop where
  bench := (Office.start (some billStore) (some { model := "m" }) { model := "m" }
    ⟨false, false, false⟩).bench
  site := billSite "a"

/-- The model was asked about the bill once the loop has done five things. -/
def billTold : Premises := next^[5] (after ⟨billShop, {}⟩ (Workshop.openDocument 1))

theorem orderly_billSite (folder : String) : (billSite folder).Orderly := by
  refine ⟨rfl, rfl, fun p hp _ script hscript => ?_, fun h => absurd h Bool.false_ne_true⟩
  obtain rfl := List.mem_singleton.1 hp
  obtain rfl := List.mem_singleton.1 hscript
  exact Ending.noConfusion

theorem equipped_billSite (folder : String) :
    (billSite folder).Equipped [Tool.ocrEngine.name] :=
  ⟨rfl, Tools.honest_of_known_eq_nil rfl⟩

theorem atRest_billShop : billShop.AtRest [Tool.ocrEngine.name] where
  sound := Workbench.sound_start (some billStore) (some { model := "m" }) { model := "m" }
    ⟨false, false, false⟩
  ended _ hw := absurd hw List.not_mem_nil
  starts := rfl
  orderly := orderly_billSite "a"
  equipped := equipped_billSite "a"
  surveyed h := absurd h Bool.false_ne_true

theorem load_bill : billShop.bench.load 1 = .ok (bill, [137]) := by
  have hname : (FileName.lastName bill.fileName).contains '\x00' = false := by
    rw [String.contains_char_eq, decide_eq_false_iff_not]
    decide +kernel
  have hcopy : billStore.copyOut 1 =
      .ok (Number.intText 1 ++ "-" ++ FileName.lastName bill.fileName, [137]) := by
    show (if (FileName.lastName bill.fileName).contains '\x00' then _ else _ :
      Except Fault (String × Utf8.Bytes)) = _
    rw [hname]
    rfl
  show (billStore.copyOut 1 >>= fun r => pure (bill, r.2) : Except Fault (Document × Utf8.Bytes)) = _
  rw [hcopy]
  rfl

/-- The bill is opened without a text. -/
theorem openDocument_bill : Workshop.openDocument 1 billShop =
    Workshop.open 1 "bill.png" [137] "image/png" "" billShop :=
  Workshop.openDocument_of_loaded load_bill rfl

theorem length_requests_billTold : billTold.shop.site.desk.requests.length = 1 := by
  have hopened : after ⟨billShop, {}⟩ (Workshop.openDocument 1) =
      after ⟨billShop, {}⟩ (Workshop.open 1 "bill.png" [137] "image/png" "") := by
    rw [after, after, Workshop.turnOf, Workshop.turnOf, openDocument_bill]
  rw [billTold, hopened]
  decide +kernel

/-- The one text of the bill is the one that is read from the picture, and both
models are told it. -/
theorem messages_bill : ∃ sent asked messages,
    (Batch.run (billShop.bench.job bill [137] (some { model := "m" })) (billSite "b")).2.desk.requests
      = [sent] ∧ billTold.shop.site.desk.requests = [asked] ∧
      sent.messages = messages ∧ asked.messages = messages := by
  have hopen : ∃ c?, (Workshop.openDocument 1 billShop).1 = .ok c? := by
    rw [openDocument_bill]
    exact ⟨_, rfl⟩
  obtain ⟨c?, hopen⟩ := hopen
  obtain ⟨sent, asked, messages, hsent, hasked, hall⟩ :=
    messages_of_run_and_reaches (s := billSite "b") (p := billTold) atRest_billShop
      (orderly_billSite "b") (equipped_billSite "b") rfl load_bill rfl (List.cons_ne_nil _ _)
      (some { model := "m" }) hopen (reaches_iterate_next 5 _)
  have hone : (Batch.run (billShop.bench.job bill [137] (some { model := "m" }))
      (billSite "b")).2.desk.requests.length = 1 := by decide +kernel
  have hone' := length_requests_billTold
  rw [hsent] at hone
  rw [hasked] at hone'
  obtain ⟨q, rfl⟩ := List.length_eq_one_iff.1 (show sent.length = 1 from hone)
  obtain ⟨q', rfl⟩ := List.length_eq_one_iff.1 (show asked.length = 1 from hone')
  exact ⟨q, q', messages, hsent, hasked, hall q (by simp), hall q' (by simp)⟩

end Premises
end Intake
