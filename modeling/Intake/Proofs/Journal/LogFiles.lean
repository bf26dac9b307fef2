import Intake.Journal.Recorder
import Mathlib.Data.List.Nodup

/-!
# Log files

What the log file of a run holds.  It holds what is recorded from the start of
the run on, each record once and in order.  It is not closed when the run ends,
so what is recorded later is in it too.

There are four groups.

* Contents.  `Journal.content` is what a file holds; `contentOf_appendFile` and
  `contentOf_foldl_appendFile` say what is added to it.
* Records.  `Logbook.Takes` says that records were taken and nothing else
  happened to the log files.
* Acts.  `Logbook.Act` is what may be done with a recorder.  `content_perform`
  is one act and `content_performAll` a sequence of acts.
* Runs.  `content_log` says what the file of a run holds, and
  `content_eq_run_iff` when it holds no more than the run.
-/

namespace Intake

/-! ## Contents -/

namespace Journal

/-- What a file holds; a file that does not exist holds nothing. -/
def contentOf (files : List (String × String)) (path : String) : String :=
  (files.lookup path).getD ""

/-- What a log file holds. -/
def content (j : Journal) (path : String) : String := contentOf j.files path

/-- Changing what one key has changes no other look-up. -/
theorem lookup_map_update (files : List (String × String)) (path text p : String) :
    (files.map fun (q, content) => if q == path then (q, content ++ text) else (q, content)).lookup
      p = (files.lookup p).map fun content => if p = path then content ++ text else content := by
  induction files with
  | nil => rfl
  | cons file rest ih =>
    obtain ⟨q, content⟩ := file
    rw [List.map_cons, List.lookup_cons]
    by_cases hq : p = q
    · subst hq
      by_cases hpath : p = path
      · simp [hpath]
      · simp [hpath]
    · have hne : (p == q) = false := beq_eq_false_iff_ne.2 hq
      have hkey : (if q == path then (q, content ++ text) else (q, content)).1 = q := by
        split <;> rfl
      rw [List.lookup_cons, hkey, hne]
      exact ih

theorem any_eq_isSome_lookup (files : List (String × String)) (path : String) :
    files.any (·.1 == path) = (files.lookup path).isSome := by
  induction files with
  | nil => rfl
  | cons file rest ih =>
    rw [List.any_cons, List.lookup_cons, ih, BEq.comm]
    cases path == file.1 <;> rfl

/-- A text is added to one file and to no other. -/
theorem contentOf_appendFile (files : List (String × String)) (path text p : String) :
    contentOf (appendFile files path text) p =
      if p = path then contentOf files p ++ text else contentOf files p := by
  rw [contentOf, contentOf, appendFile, any_eq_isSome_lookup]
  cases hlookup : files.lookup path with
  | some content =>
    rw [Option.isSome_some, if_pos rfl, lookup_map_update]
    by_cases hp : p = path
    · rw [hp, hlookup]
      rfl
    · simp [hp]
  | none =>
    rw [Option.isSome_none, if_neg Bool.false_ne_true, List.lookup_append]
    by_cases hp : p = path
    · simp [hp, hlookup]
    · have hother : (p == path) = false := beq_eq_false_iff_ne.2 hp
      rw [List.lookup_cons, hother, if_neg hp]
      simp

/-- A text is added to each of some files, once. -/
theorem contentOf_foldl_appendFile {paths : List String} (hnodup : paths.Nodup)
    (files : List (String × String)) (text p : String) :
    contentOf (paths.foldl (fun files path => appendFile files path text) files) p =
      if p ∈ paths then contentOf files p ++ text else contentOf files p := by
  induction paths generalizing files with
  | nil => rfl
  | cons path rest ih =>
    obtain ⟨hfirst, hrest⟩ := List.nodup_cons.1 hnodup
    rw [List.foldl_cons, ih hrest, contentOf_appendFile]
    by_cases hp : p = path
    · subst hp
      rw [if_neg hfirst, if_pos rfl, if_pos List.mem_cons_self]
    · simp [hp]

theorem content_emit {j : Journal} (hnodup : j.openFiles.Nodup) (clock : Float) (r : Record)
    (path : String) :
    (j.emit clock r).content path =
      if path ∈ j.openFiles then j.content path ++ j.fileLine clock r else j.content path :=
  contentOf_foldl_appendFile hnodup j.files _ path

end Journal

/-! ## Records -/

namespace Logbook

variable {b b' b'' : Logbook} {rs rs' : List Record} {path : String}

/-- Records as lines of a log file. -/
def lines (b : Logbook) (rs : List Record) : List String := rs.map (b.journal.fileLine b.clock)

/-- Records are taken.  They are added to the open log files, and nothing else
happens to log files. -/
structure Takes (b b' : Logbook) (rs : List Record) : Prop where
  clock : b'.clock = b.clock
  start : b'.journal.start = b.journal.start
  folder : b'.recorder.folder = b.recorder.folder
  openFiles : b'.journal.openFiles = b.journal.openFiles
  records : b'.journal.records = b.journal.records ++ rs
  contents : b.journal.openFiles.Nodup → ∀ path, b'.journal.content path =
    if path ∈ b.journal.openFiles then b.journal.content path ++ String.join (b.lines rs)
    else b.journal.content path

theorem lines_congr (hclock : b'.clock = b.clock) (hstart : b'.journal.start = b.journal.start)
    (rs : List Record) : b'.lines rs = b.lines rs := by
  have hline : b'.journal.fileLine b'.clock = b.journal.fileLine b.clock := by
    funext r
    rw [Journal.fileLine, Journal.fileLine, Journal.moment, Journal.moment, hclock, hstart]
  rw [lines, lines, hline]

/-- A change of the recorder or of the console takes no record. -/
theorem takes_nil (hclock : b'.clock = b.clock) (hstart : b'.journal.start = b.journal.start)
    (hfolder : b'.recorder.folder = b.recorder.folder)
    (hopen : b'.journal.openFiles = b.journal.openFiles)
    (hrecords : b'.journal.records = b.journal.records)
    (hfiles : b'.journal.files = b.journal.files) : Takes b b' [] := by
  refine ⟨hclock, hstart, hfolder, hopen, ?_, fun _ path => ?_⟩
  · rw [hrecords, List.append_nil]
  · rw [Journal.content, Journal.content, hfiles]
    split
    · exact String.append_empty.symm
    · rfl

theorem takes_note (b : Logbook) (source : Source) (level : Level) (text : String) :
    Takes b (b.note source level text) [⟨source, level, text⟩] := by
  refine ⟨rfl, rfl, rfl, rfl, rfl, fun hnodup path => ?_⟩
  rw [lines, List.map_singleton, String.join_cons, String.join_nil, String.append_empty]
  exact Journal.content_emit hnodup b.clock _ path

theorem Takes.trans (h : Takes b b' rs) (h' : Takes b' b'' rs') : Takes b b'' (rs ++ rs') := by
  refine ⟨h'.clock.trans h.clock, h'.start.trans h.start, h'.folder.trans h.folder,
    h'.openFiles.trans h.openFiles, ?_, fun hnodup path => ?_⟩
  · rw [h'.records, h.records, List.append_assoc]
  · have hlater := h'.contents (by rw [h.openFiles]; exact hnodup) path
    rw [h.openFiles, lines_congr h.clock h.start] at hlater
    rw [hlater, h.contents hnodup path]
    split
    · rw [lines, lines, lines, List.map_append, String.join_append, String.append_assoc]
    · rfl

/-! ## Acts -/

/-- What may be done with a recorder, and what other parts report meanwhile. -/
inductive Act where
  | startRun (file : String)
  | startLayer (layer detail : String)
  | layerResult (result : String) (figures : Journal.Fields)
  | debug (message : String) (fields : Journal.Fields)
  | warning (message : String) (fields : Journal.Fields)
  | error (message : String) (cause : Option Fault) (fields : Journal.Fields)
  | summary (figures : Journal.Fields)
  | note (source : Source) (level : Level) (text : String)
  | setVerbose (verbose : Bool)
  | tick (seconds : Float)
  | endRun (success : Bool) (figures : Journal.Fields)

/-- Does something. -/
def perform (b : Logbook) : Act → Logbook
  | .startRun file => b.startRun file
  | .startLayer layer detail => b.startLayer layer detail
  | .layerResult result figures => b.layerResult result figures
  | .debug message fields => b.debug message fields
  | .warning message fields => b.warning message fields
  | .error message cause fields => b.error message cause fields
  | .summary figures => b.summary figures
  | .note source level text => b.note source level text
  | .setVerbose verbose => b.setVerbose verbose
  | .tick seconds => b.tick seconds
  | .endRun success figures => b.endRun success figures

/-- Does one thing after the other. -/
def performAll (b : Logbook) (acts : List Act) : Logbook := acts.foldl perform b

/-- What is recorded while something is done, as lines of a log file. -/
def written (b : Logbook) (a : Act) : List String :=
  b.lines ((b.perform a).journal.records.drop b.journal.records.length)

/-- What is recorded while one thing is done after the other. -/
def writtenAll : Logbook → List Act → List String
  | _, [] => []
  | b, a :: rest => b.written a ++ writtenAll (b.perform a) rest

theorem written_of_takes {a : Act} (h : Takes b (b.perform a) rs) : b.written a = b.lines rs := by
  rw [written, h.records, List.drop_left]

theorem takes_endRun (b : Logbook) (success : Bool) (figures : Journal.Fields) :
    ∃ rs, Takes b (b.endRun success figures) rs := by
  have hsummary : ∃ rs, Takes b (if figures.isEmpty then b else b.summary figures) rs := by
    split
    · exact ⟨[], takes_nil rfl rfl rfl rfl rfl rfl⟩
    · exact ⟨_, takes_note b .run .info _⟩
  obtain ⟨rs, hsummary⟩ := hsummary
  rw [endRun]
  generalize (if figures.isEmpty then b else b.summary figures) = ended at hsummary ⊢
  split
  · exact ⟨_, (hsummary.trans (takes_note ..)).trans (takes_note ..)⟩
  · exact ⟨_, hsummary.trans (takes_note ..)⟩

/-- Whatever is done takes records, but for the start of a run and the course
of time. -/
theorem takes_perform (b : Logbook) (a : Act) :
    (∃ file, a = .startRun file) ∨ (∃ seconds, a = .tick seconds) ∨
      ∃ rs, Takes b (b.perform a) rs := by
  cases a with
  | startRun file => exact .inl ⟨file, rfl⟩
  | tick seconds => exact .inr (.inl ⟨seconds, rfl⟩)
  | startLayer layer detail =>
    have hset : Takes b
        { b with recorder := { b.recorder with layerStart := some b.seconds } } [] :=
      takes_nil rfl rfl rfl rfl rfl rfl
    exact .inr (.inr ⟨_, hset.trans (takes_note ..)⟩)
  | setVerbose verbose => exact .inr (.inr ⟨[], takes_nil rfl rfl rfl rfl rfl rfl⟩)
  | endRun success figures => exact .inr (.inr (takes_endRun b success figures))
  | _ => exact .inr (.inr ⟨_, takes_note ..⟩)

/-- The logbook in which the head of a run is taken. -/
def opened (b : Logbook) (file : String) : Logbook :=
  { b with recorder := { b.recorder with runStart := some b.seconds } }.openLog file

/-- Opening a log file changes what no file holds. -/
structure Opens (b b' : Logbook) : Prop where
  clock : b'.clock = b.clock
  start : b'.journal.start = b.journal.start
  folder : b'.recorder.folder = b.recorder.folder
  openFiles : b.journal.openFiles <+: b'.journal.openFiles
  records : b'.journal.records = b.journal.records
  contents : ∀ path, b'.journal.content path = b.journal.content path

theorem opens_opened (b : Logbook) (file : String) : b.Opens (b.opened file) := by
  rw [opened, openLog]
  split
  · exact ⟨rfl, rfl, rfl, List.prefix_refl _, rfl, fun _ => rfl⟩
  · refine ⟨rfl, rfl, rfl, List.prefix_append _ _, rfl, fun path => ?_⟩
    refine (Journal.contentOf_appendFile _ _ _ _).trans ?_
    rw [String.append_empty, ite_self]
    rfl

theorem takes_opened (b : Logbook) (file : String) :
    ∃ r, Takes (b.opened file) (b.perform (.startRun file)) [r] := ⟨_, takes_note ..⟩

/-- The head of a run is the first line in its log file. -/
theorem written_startRun (b : Logbook) (file : String) :
    ∃ r, Takes (b.opened file) (b.perform (.startRun file)) [r] ∧
      b.written (.startRun file) = b.lines [r] := by
  obtain ⟨r, htakes⟩ := takes_opened b file
  refine ⟨r, htakes, ?_⟩
  rw [written, htakes.records, (opens_opened b file).records, List.drop_left]

/-- Whatever is done opens log files at most. -/
theorem openFiles_perform (b : Logbook) (a : Act) :
    b.journal.openFiles <+: (b.perform a).journal.openFiles ∧
      (b.perform a).recorder.folder = b.recorder.folder := by
  rcases takes_perform b a with ⟨file, rfl⟩ | ⟨seconds, rfl⟩ | ⟨rs, htakes⟩
  · obtain ⟨r, htakes⟩ := takes_opened b file
    have hopens := opens_opened b file
    exact ⟨htakes.openFiles ▸ hopens.openFiles, htakes.folder.trans hopens.folder⟩
  · exact ⟨List.prefix_refl _, rfl⟩
  · exact ⟨htakes.openFiles ▸ List.prefix_refl _, htakes.folder⟩

/-- What is recorded is added to every file that is open by then. -/
theorem content_perform (a : Act) (hnodup : (b.perform a).journal.openFiles.Nodup)
    (path : String) :
    (b.perform a).journal.content path =
      if path ∈ (b.perform a).journal.openFiles then
        b.journal.content path ++ String.join (b.written a)
      else b.journal.content path := by
  rcases takes_perform b a with ⟨file, rfl⟩ | ⟨seconds, rfl⟩ | ⟨rs, htakes⟩
  · obtain ⟨r, htakes, hwritten⟩ := written_startRun b file
    have hopens := opens_opened b file
    have hcontents := htakes.contents (by rw [← htakes.openFiles]; exact hnodup) path
    rw [lines_congr hopens.clock hopens.start, hopens.contents, ← htakes.openFiles] at hcontents
    rw [hwritten]
    exact hcontents
  · have hwritten : b.written (.tick seconds) = [] := by
      rw [written]
      exact congrArg b.lines (List.drop_length ..)
    rw [hwritten, String.join_nil, String.append_empty, ite_self]
    rfl
  · have hcontents := htakes.contents (by rw [← htakes.openFiles]; exact hnodup) path
    rw [written_of_takes htakes, htakes.openFiles]
    exact hcontents

theorem openFiles_performAll (b : Logbook) (acts : List Act) :
    b.journal.openFiles <+: (b.performAll acts).journal.openFiles ∧
      (b.performAll acts).recorder.folder = b.recorder.folder := by
  induction acts generalizing b with
  | nil => exact ⟨List.prefix_refl _, rfl⟩
  | cons a rest ih =>
    obtain ⟨hfirst, hfolder⟩ := openFiles_perform b a
    obtain ⟨hrest, hfolder'⟩ := ih (b.perform a)
    exact ⟨hfirst.trans hrest, hfolder'.trans hfolder⟩

/-- What is recorded is added to a file that is open from the beginning, and a
file that is never opened stays as it is. -/
theorem content_performAll (acts : List Act)
    (hnodup : (b.performAll acts).journal.openFiles.Nodup) (path : String) :
    (path ∈ b.journal.openFiles → (b.performAll acts).journal.content path =
      b.journal.content path ++ String.join (b.writtenAll acts)) ∧
    (path ∉ (b.performAll acts).journal.openFiles →
      (b.performAll acts).journal.content path = b.journal.content path) := by
  induction acts generalizing b with
  | nil => exact ⟨fun _ => String.append_empty.symm, fun _ => rfl⟩
  | cons a rest ih =>
    have hlater := (openFiles_performAll (b.perform a) rest).1
    have hfirst := content_perform a (hnodup.sublist hlater.sublist) path
    obtain ⟨hopen, hclosed⟩ := ih hnodup
    refine ⟨fun hmem => ?_, fun hmem => ?_⟩
    · have hmem' := (openFiles_perform b a).1.subset hmem
      rw [if_pos hmem'] at hfirst
      refine (hopen hmem').trans ?_
      rw [hfirst, writtenAll, String.join_append, String.append_assoc]
    · refine (hclosed hmem).trans ?_
      rw [hfirst, if_neg fun h => hmem (hlater.subset h)]

theorem performAll_append (b : Logbook) (acts later : List Act) :
    b.performAll (acts ++ later) = (b.performAll acts).performAll later :=
  List.foldl_append

theorem writtenAll_append (b : Logbook) (acts later : List Act) :
    b.writtenAll (acts ++ later) = b.writtenAll acts ++ (b.performAll acts).writtenAll later := by
  induction acts generalizing b with
  | nil => rfl
  | cons a rest ih =>
    rw [List.cons_append, writtenAll, ih, writtenAll, List.append_assoc]
    rfl

/-- Every line says something. -/
theorem join_written_eq_empty_iff (b : Logbook) (acts : List Act) :
    String.join (b.writtenAll acts) = "" ↔ b.writtenAll acts = [] := by
  induction acts generalizing b with
  | nil => exact iff_of_true rfl rfl
  | cons a rest ih =>
    rw [writtenAll, String.join_append, String.append_eq_empty_iff, ih, List.append_eq_nil_iff]
    refine and_congr_left fun _ => ?_
    rw [written, lines]
    generalize (b.perform a).journal.records.drop b.journal.records.length = rs
    cases rs with
    | nil => exact iff_of_true rfl rfl
    | cons r rest =>
      refine iff_of_false (fun h => ?_) (List.cons_ne_nil _ _)
      rw [List.map_cons, String.join_cons, String.append_eq_empty_iff, Journal.fileLine,
        String.append_eq_empty_iff] at h
      exact absurd h.1.2 (by decide)

/-- The start of a run is never passed over. -/
theorem writtenAll_ne_nil {acts : List Act} {file : String} (h : .startRun file ∈ acts)
    (b : Logbook) : b.writtenAll acts ≠ [] := by
  induction acts generalizing b with
  | nil => cases h
  | cons a rest ih =>
    rw [writtenAll]
    rcases List.mem_cons.1 h with rfl | hrest
    · obtain ⟨r, -, hwritten⟩ := written_startRun b file
      rw [hwritten]
      exact List.cons_ne_nil _ _
    · exact List.append_ne_nil_of_right_ne_nil _ (ih hrest (b.perform a))

/-! ## Runs -/

/-- All that is done from the start of a run to its end. -/
def wholeRun (file : String) (during : List Act) (success : Bool) (figures : Journal.Fields) :
    List Act :=
  .startRun file :: during ++ [.endRun success figures]

theorem openFiles_startRun {folder : String} (h : b.recorder.folder = some folder) (file : String) :
    (b.perform (.startRun file)).journal.openFiles =
      b.journal.openFiles ++ [b.logPath folder file] := by
  obtain ⟨r, htakes⟩ := takes_opened b file
  rw [htakes.openFiles, opened, openLog]
  dsimp only
  rw [h]
  rfl

/-- A log file holds what is recorded from the start of its run on. -/
theorem content_log {folder file : String} {before later : List Act}
    (hfolder : b.recorder.folder = some folder)
    (hdistinct : (b.performAll (before ++ .startRun file :: later)).journal.openFiles.Nodup)
    (hnew : b.journal.content ((b.performAll before).logPath folder file) = "") :
    (b.performAll (before ++ .startRun file :: later)).journal.content
        ((b.performAll before).logPath folder file) =
      String.join ((b.performAll before).writtenAll (.startRun file :: later)) := by
  rw [performAll_append] at hdistinct ⊢
  generalize hstarted : b.performAll before = started at *
  generalize hpath : started.logPath folder file = path at *
  have hfolder' : started.recorder.folder = some folder := by
    rw [← hstarted, (openFiles_performAll b before).2, hfolder]
  have hopens := openFiles_startRun hfolder' file
  rw [hpath] at hopens
  have hlater := (openFiles_performAll (started.perform (.startRun file)) later).1
  have hnodup : (started.perform (.startRun file)).journal.openFiles.Nodup :=
    hdistinct.sublist hlater.sublist
  have hmem : path ∈ (started.perform (.startRun file)).journal.openFiles := by simp [hopens]
  -- the file is not open before, so nothing is added to it before
  have hnodup' := hnodup
  rw [hopens] at hnodup'
  have hclosed : path ∉ started.journal.openFiles := fun h =>
    (List.nodup_append.1 hnodup').2.2 path h path (List.mem_singleton.2 rfl) rfl
  have hempty : started.journal.content path = "" := by
    rw [← hstarted] at hnodup' hclosed ⊢
    rw [(content_performAll before hnodup'.of_append_left path).2 hclosed, hnew]
  have hfirst := content_perform (.startRun file) hnodup path
  rw [if_pos hmem, hempty, String.empty_append] at hfirst
  refine ((content_performAll later hdistinct path).1 hmem).trans ?_
  rw [hfirst, writtenAll, String.join_append]

/-- A log file holds a run alone exactly if nothing is recorded behind it. -/
theorem content_eq_run_iff {folder file : String} {before during after : List Act} {success : Bool}
    {figures : Journal.Fields} (hfolder : b.recorder.folder = some folder)
    (hdistinct : (b.performAll (before ++ (wholeRun file during success figures ++
      after))).journal.openFiles.Nodup)
    (hnew : b.journal.content ((b.performAll before).logPath folder file) = "") :
    (b.performAll (before ++ (wholeRun file during success figures ++ after))).journal.content
        ((b.performAll before).logPath folder file) =
      String.join ((b.performAll before).writtenAll (wholeRun file during success figures)) ↔
    ((b.performAll before).performAll (wholeRun file during success figures)).writtenAll after =
      [] := by
  have hcontent : (b.performAll (before ++ (wholeRun file during success figures ++
      after))).journal.content ((b.performAll before).logPath folder file) =
      String.join ((b.performAll before).writtenAll
        (wholeRun file during success figures ++ after)) := content_log hfolder hdistinct hnew
  rw [hcontent, writtenAll_append, String.join_append, String.append_eq_left_iff]
  exact join_written_eq_empty_iff _ after

/-- A log file holds all that is recorded in its run, each record once and in
order, and nothing from before.  Behind that it holds all that is recorded when
the run is over, since the file stays open.  It holds its own run alone exactly
if nothing is recorded afterwards, so never if another run follows. -/
theorem log_holds_run_and_rest {b : Logbook} {folder file : String} {before during after : List Act}
    {success : Bool} {figures : Journal.Fields} (hfolder : b.recorder.folder = some folder)
    (hdistinct : (b.performAll (before ++ (wholeRun file during success figures ++
      after))).journal.openFiles.Nodup)
    (hnew : b.journal.content ((b.performAll before).logPath folder file) = "") :
    let started := b.performAll before
    let own := started.writtenAll (wholeRun file during success figures)
    let rest := (started.performAll (wholeRun file during success figures)).writtenAll after
    let content := (b.performAll (before ++ (wholeRun file during success figures ++
      after))).journal.content (started.logPath folder file)
    content = String.join (own ++ rest) ∧ (content = String.join own ↔ rest = []) ∧
      ((∃ next, .startRun next ∈ after) → content ≠ String.join own) := by
  intro started own rest content
  have halone : content = String.join own ↔ rest = [] := content_eq_run_iff hfolder hdistinct hnew
  refine ⟨?_, halone, ?_⟩
  · rw [← writtenAll_append]
    exact content_log hfolder hdistinct hnew
  · rintro ⟨next, hnext⟩ heq
    exact writtenAll_ne_nil hnext _ (halone.1 heq)

/-- A recorder with a folder for log files, after a record of another part. -/
def filing : Logbook :=
  ({ recorder := { folder := some "logs" }, current := true } : Logbook).note .store .warning "slow"

/-- A run with a warning. -/
def firstRun : List Act := wholeRun "a.txt" [.warning "careful" []] true []

/-- Another run, a second later. -/
def secondRun : List Act := .tick 1 :: wholeRun "b.txt" [.debug "other" []] true []

theorem nodup_openFiles_filing :
    (filing.performAll ([] ++ (firstRun ++ secondRun))).journal.openFiles.Nodup := by
  decide +kernel

theorem log_holds_run_and_rest_filing :
    (filing.performAll ([] ++ (firstRun ++ secondRun))).journal.content
        (filing.logPath "logs" "a.txt") =
      String.join (filing.writtenAll firstRun ++
        (filing.performAll firstRun).writtenAll secondRun) :=
  (log_holds_run_and_rest rfl nodup_openFiles_filing rfl).1

/-- The log file of the first run is not its own. -/
theorem log_of_firstRun_ne_own :
    (filing.performAll ([] ++ (firstRun ++ secondRun))).journal.openFiles.Nodup ∧
      (filing.performAll ([] ++ (firstRun ++ secondRun))).journal.content
        (filing.logPath "logs" "a.txt") ≠ String.join (filing.writtenAll firstRun) := by
  refine ⟨nodup_openFiles_filing, fun hown => ?_⟩
  have hnext : .startRun "b.txt" ∈ secondRun := by simp [secondRun, wholeRun]
  exact writtenAll_ne_nil hnext _ ((content_eq_run_iff rfl nodup_openFiles_filing rfl).1 hown)

end Logbook
end Intake
