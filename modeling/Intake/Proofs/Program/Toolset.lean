import Intake.Layer.TextLayer
import Intake.Proofs.Program.Courses
import Intake.Proofs.Program.Orderly

/-!
# Tools and text layers

What a look at the tools answers, and what the text layer of a document comes
to at an orderly site.

There are three groups.

* Tools.  `Tools.Honest` says that what is known about the tools is what is
  installed; `Tools.Answers` says what a question is answered there.
* Time limits.  `run_of_patient` says what a program with a time limit comes
  to where nothing else breaks it off, and `Site.ranWithin` what it leaves
  behind.
* Text layers.  `TextLayer.found` is the text of a document, and
  `Site.textRan` is the site once it was looked for; `extract_of_orderly` is
  the result.
-/

namespace Intake

open Text

/-! ## Tools -/

namespace Tools

variable {α β : Type}

/-- What is known about the tools is what is installed. -/
def Honest (t : Tools) : Prop :=
  ∀ tool answer, t.known.lookup tool = some answer → answer = t.installed.contains tool.name

/-- A question is answered by what is installed, and what is known then is
still that. -/
def Answers (question : StateM Tools α) (answer : List String → α) : Prop :=
  ∀ t : Tools, t.Honest → (question t).1 = answer t.installed ∧
    (question t).2.installed = t.installed ∧ (question t).2.Honest

theorem honest_of_known_eq_nil {t : Tools} (h : t.known = []) : t.Honest := by
  intro tool answer hanswer
  rw [h] at hanswer
  cases hanswer

theorem answers_pure (a : α) : Answers (pure a) fun _ => a := fun _ h => ⟨rfl, rfl, h⟩

theorem Answers.bind {question : StateM Tools α} {answer : List String → α}
    {next : α → StateM Tools β} (h : Answers question answer) (last : α → List String → β)
    (hnext : ∀ a, Answers (next a) (last a)) :
    Answers (question >>= next) fun installed => last (answer installed) installed := by
  intro t ht
  obtain ⟨hanswer, hinstalled, hhonest⟩ := h t ht
  obtain ⟨hlast, hinstalled', hhonest'⟩ := hnext (question t).1 _ hhonest
  refine ⟨hlast.trans ?_, hinstalled'.trans hinstalled, hhonest'⟩
  rw [hinstalled, hanswer]

theorem answers_has (tool : Tool) : Answers (has tool) fun installed =>
    installed.contains tool.name := by
  intro t ht
  rw [has]
  cases hknown : t.known.lookup tool with
  | some answer => exact ⟨ht tool answer hknown, rfl, ht⟩
  | none =>
    refine ⟨rfl, rfl, fun other answer hother => ?_⟩
    dsimp only at hother ⊢
    rw [List.lookup_append] at hother
    cases hfound : t.known.lookup other with
    | some a =>
      rw [hfound] at hother
      obtain rfl := Option.some.inj hother
      exact ht other a hfound
    | none =>
      rw [hfound, Option.none_or, List.lookup_cons] at hother
      split at hother
      · rename_i heq
        rw [beq_iff_eq.1 heq]
        exact (Option.some.inj hother).symm
      · cases hother

/-- Whether the pages of a document can be read with these tools. -/
def canRead (installed : List String) (mime : String) : Bool :=
  if Mime.isPdf mime then
    installed.contains Tool.ocrEngine.name && installed.contains Tool.rasterizer.name
  else installed.contains Tool.ocrEngine.name

theorem answers_pdfOcrAvailable : Answers pdfOcrAvailable fun installed =>
    installed.contains Tool.ocrEngine.name && installed.contains Tool.rasterizer.name := by
  refine (answers_has .ocrEngine).bind
    (fun engine installed => engine && installed.contains Tool.rasterizer.name) fun engine => ?_
  cases engine with
  | true => exact answers_has .rasterizer
  | false => exact answers_pure false

theorem answers_available (mime : String) :
    Answers (if Mime.isPdf mime then pdfOcrAvailable else imageOcrAvailable)
      (canRead · mime) := by
  intro t ht
  dsimp only
  cases hpdf : Mime.isPdf mime with
  | true =>
    rw [if_pos rfl, canRead, if_pos hpdf]
    exact answers_pdfOcrAvailable t ht
  | false =>
    rw [if_neg Bool.false_ne_true, canRead, hpdf, if_neg Bool.false_ne_true]
    exact answers_has .ocrEngine t ht

/-- All that is installed of the tools. -/
def surveyed (installed : List String) : Capabilities where
  textExtractor := installed.contains Tool.textExtractor.name
  rasterizer := installed.contains Tool.rasterizer.name
  ocrEngine := installed.contains Tool.ocrEngine.name

theorem answers_survey : Answers survey surveyed := by
  refine (answers_has .textExtractor).bind (fun text installed =>
    (⟨text, (surveyed installed).rasterizer, (surveyed installed).ocrEngine⟩ : Capabilities))
      fun text => ?_
  refine (answers_has .rasterizer).bind (fun rasterizer installed =>
    (⟨text, rasterizer, (surveyed installed).ocrEngine⟩ : Capabilities)) fun rasterizer => ?_
  refine (answers_has .ocrEngine).bind (fun engine _ =>
    (⟨text, rasterizer, engine⟩ : Capabilities)) fun engine => ?_
  exact answers_pure _

/-- A record that is kept says what is known, and so what is installed. -/
theorem answers_capabilities : Answers capabilities surveyed := by
  intro t ht
  rw [capabilities]
  cases hrecord : t.record.all with
  | none => exact answers_survey t ht
  | some c =>
    refine ⟨?_, rfl, ht⟩
    have hhas : ∀ tool, c.has tool = t.installed.contains tool.name :=
      fun tool => ht tool _ (t.record.lookup_all c hrecord tool)
    exact congr (congrArg₂ Capabilities.mk (hhas .textExtractor) (hhas .rasterizer))
      (hhas .ocrEngine)

end Tools

namespace Site

/-- The tools that are installed, and what is known about them is true. -/
structure Equipped (installed : List String) (s : Site) : Prop where
  installed : s.tools.installed = installed
  honest : s.tools.Honest

variable {installed : List String} {s t : Site}

theorem Equipped.congr (h : s.Equipped installed) (htools : t.tools = s.tools) :
    t.Equipped installed := by
  refine ⟨?_, ?_⟩
  · rw [htools]
    exact h.installed
  · rw [htools]
    exact h.honest

/-- A question about tools is answered by what is installed. -/
theorem Equipped.ask (h : s.Equipped installed) {α : Type} {question : StateM Tools α}
    {answer : List String → α} (hquestion : Tools.Answers question answer) :
    (s.ask question).1 = answer installed ∧ (s.ask question).2.Equipped installed := by
  obtain ⟨hanswer, hinstalled, hhonest⟩ := hquestion s.tools h.honest
  rw [h.installed] at hanswer hinstalled
  exact ⟨hanswer, hinstalled, hhonest⟩

end Site

/-! ## Time limits -/

/-- What a start of a program comes to when nothing but its time limit can
stop it. -/
def Script.givenWithin (script : Script) (r : Request) (seconds : Float) : Except Fault Yield :=
  match script.startFault with
  | some e => .error e
  | none =>
    match race script.ending (some seconds) none with
    | .ended => script.result r
    | _ => .error (.timeout r.program seconds)

/-- A program that was started runs past its time limit. -/
def Script.overruns (script : Script) (seconds : Float) : Bool :=
  script.startFault.isNone && race script.ending (some seconds) none != .ended

/-- A program that fires no cancellation is up against its time limit alone. -/
theorem Script.outcome_of_quiet {script : Script} {heeded : Bool}
    (h : heeded = true → script.firing = .never) (limit : Option Float) :
    script.outcome limit heeded = race script.ending limit none := by
  have hfires : (if heeded then script.fireTime else none) = none := by
    cases heeded with
    | false => rfl
    | true => rw [if_pos rfl, Script.fireTime, h rfl]
  have hlate : (heeded && script.firesLate limit) = false := by
    cases heeded with
    | false => rfl
    | true => cases limit <;> simp [Script.firesLate, Script.firesBy, h rfl]
  rw [Script.outcome_eq, hfires, hlate]
  cases race script.ending limit none <;> rfl

theorem race_within (ending : Ending) (seconds : Float) :
    race ending (some seconds) none = .ended ∨ race ending (some seconds) none = .timedOut := by
  cases ending with
  | atOnce => exact Or.inl rfl
  | never => exact Or.inr rfl
  | after t =>
    rw [race]
    split
    · exact Or.inl rfl
    · exact Or.inr rfl

/-- A site once a program with a time limit was run. -/
def Site.ranWithin (s : Site) (r : Request) (seconds : Float) : Site :=
  if (s.takeScript r.program).1.overruns seconds then (s.launched r).stopLatest else s.launched r

/-- A wait at the site is broken off by nothing but its time limit.  The caller
is not given up, and the cancellation never fires. -/
structure Site.Patient (s : Site) : Prop where
  present : s.abandoned = false
  unfired : s.fired = false
  quiet : s.signal.isSome = true → ∀ program, (s.takeScript program).1.firing = .never

theorem Site.Orderly.patient {s : Site} (h : s.Orderly) : s.Patient :=
  ⟨h.present, h.unfired, fun hsignal program => h.quiet_takeScript program hsignal⟩

theorem Site.Patient.rests {s t : Site} (h : s.Patient) (hrests : s.Rests t) : t.Patient := by
  have hscript : ∀ program, (t.takeScript program).1 = (s.takeScript program).1 := by
    intro program
    rw [takeScript, takeScript, hrests.scripts]
  refine ⟨hrests.abandoned.trans h.present, ?_, fun hsignal program => ?_⟩
  · rw [fired, hrests.signal]
    exact h.unfired
  · rw [hrests.signal] at hsignal
    rw [hscript program]
    exact h.quiet hsignal program

/-- Where there is no cancellation it is enough that the caller stays. -/
theorem Site.patient_unsignalled {s : Site} (h : s.abandoned = false) :
    Site.Patient { s with signal := none } :=
  ⟨h, rfl, fun hsignal => absurd hsignal Bool.false_ne_true⟩

/-- A program that is run under a time limit gives what its script says, or
it is stopped in time. -/
theorem run_of_patient {s : Site} (h : s.Patient) {r : Request} {seconds : Float}
    (hr : r.limit = some seconds) : Shell.run r s =
      ((s.takeScript r.program).1.givenWithin r seconds, s.ranWithin r seconds) := by
  rw [Shell.run_of_unfired h.unfired, Script.givenWithin, Site.ranWithin, Script.overruns]
  cases (s.takeScript r.program).1.startFault with
  | some e => rfl
  | none =>
    have hsignal : (s.launched r).signal = s.signal := by rw [Site.launched_eq]
    have hpresent : (s.launched r).abandoned = false := by
      rw [Site.launched_eq]
      exact h.present
    have hquiet : (s.launched r).signal.isSome = true →
        (s.takeScript r.program).1.firing = .never := by
      rw [hsignal]
      exact fun hsome => h.quiet hsome r.program
    have hcourse : Shell.courseOf (s.launched r) r (s.takeScript r.program).1 =
        race (s.takeScript r.program).1.ending (some seconds) none := by
      rw [Shell.courseOf, hpresent, hr]
      exact Script.outcome_of_quiet hquiet _
    dsimp only
    rw [Shell.await_eq, hcourse, Site.fire_eq_self hquiet]
    rcases race_within (s.takeScript r.program).1.ending seconds with hended | htimed
    · rw [hended]
      rfl
    · rw [htimed, hr]
      rfl

/-! ## Text layers -/

namespace TextLayer

/-- What the text extractor gives. -/
def given (script : Script) (seconds : Float) : Except Fault String :=
  (script.givenWithin (request "" seconds) seconds).map fun made =>
    normalized (Utf8.decodeString made.output)

/-- Whether the text extractor is run for a document. -/
def runs (installed : List String) (mime : String) : Bool :=
  Mime.isPdf mime && installed.contains Tool.textExtractor.name

/-- The text of a document. -/
def found (installed : List String) (script : Script) (data : Utf8.Bytes) (mime : String)
    (bound : Option Float) : Except Fault String :=
  if runs installed mime then given script (boundInForce bound)
  else if Mime.isPdf mime then .ok ""
  else if Mime.isPlainText mime then .ok (normalized (Utf8.decodeString data))
  else .ok ""

/-- It does not matter where the document is. -/
theorem given_of_scratch (script : Script) (scratch : String) (seconds : Float) :
    ((script.givenWithin (request scratch seconds) seconds).map fun made =>
      normalized (Utf8.decodeString made.output)) = given script seconds := by
  rw [given, Script.givenWithin, Script.givenWithin]
  cases script.startFault with
  | some e => rfl
  | none =>
    dsimp only
    rcases race_within script.ending seconds with hended | htimed
    · rw [hended]
      simp only [Script.result]
      split
      · rfl
      · rfl
    · rw [htimed]
      rfl

end TextLayer

namespace Site

variable {installed : List String} {s t : Site}

/-- A site once the text of a document was looked for. -/
def textRan (s : Site) (runs : Bool) (seconds : Float) : Site :=
  if runs then s.ranWithin (TextLayer.request s.scratch seconds) seconds else s

/-- What a run of the text extractor changes. -/
theorem ranWithin_eq (s : Site) (r : Request) (seconds : Float) :
    (s.ranWithin r seconds).scratch = s.scratch ∧
      (s.ranWithin r seconds).scripts = (s.takeScript r.program).2.scripts ∧
      (s.ranWithin r seconds).calls =
        s.calls ++ [⟨r.words, ((s.takeScript r.program).1.overruns seconds).toNat⟩] ∧
      (s.ranWithin r seconds).signal = s.signal ∧
      (s.ranWithin r seconds).abandoned = s.abandoned ∧
      (s.ranWithin r seconds).desk = s.desk ∧ (s.ranWithin r seconds).tools = s.tools := by
  have hlatest : ∀ (calls : List Call) (c : Call) (f : Call → Call),
      (calls ++ [c]).modify ((calls ++ [c]).length - 1) f = calls ++ [f c] := by
    intro calls c f
    rw [List.length_append, List.length_singleton, Nat.add_sub_cancel,
      List.modify_eq_take_cons_drop (by simp)]
    simp
  rw [ranWithin]
  cases hoverruns : (s.takeScript r.program).1.overruns seconds with
  | false =>
    rw [if_neg Bool.false_ne_true, launched_eq]
    exact ⟨rfl, rfl, rfl, rfl, rfl, rfl, rfl⟩
  | true =>
    rw [if_pos rfl, stopLatest, stopCall, launched_eq]
    exact ⟨rfl, rfl, hlatest _ _ _, rfl, rfl, rfl, rfl⟩

theorem frames_textRan (s : Site) (runs : Bool) (seconds : Float) :
    (s.textRan runs seconds).signal = s.signal ∧
      (s.textRan runs seconds).abandoned = s.abandoned ∧
      (s.textRan runs seconds).desk = s.desk := by
  cases runs with
  | false => exact ⟨rfl, rfl, rfl⟩
  | true =>
    obtain ⟨-, -, -, hsignal, habandoned, hdesk, -⟩ :=
      ranWithin_eq s (TextLayer.request s.scratch seconds) seconds
    exact ⟨hsignal, habandoned, hdesk⟩

/-- Where nothing but the logbook and the tools differ, the text extractor
leaves nothing else different. -/
theorem Rests.textRan (h : s.Rests t) (runs : Bool) (seconds : Float) :
    (s.textRan runs seconds).Rests (t.textRan runs seconds) := by
  cases runs with
  | false => exact h
  | true =>
    obtain ⟨hscratch, hscripts, hcalls, hsignal, habandoned, hdesk, -⟩ :=
      ranWithin_eq s (TextLayer.request s.scratch seconds) seconds
    obtain ⟨hscratch', hscripts', hcalls', hsignal', habandoned', hdesk', -⟩ :=
      ranWithin_eq t (TextLayer.request t.scratch seconds) seconds
    have htake : ∀ program, (t.takeScript program).1 = (s.takeScript program).1 ∧
        (t.takeScript program).2.scripts = (s.takeScript program).2.scripts := by
      intro program
      rw [takeScript, takeScript, h.scripts]
      exact ⟨Eq.refl _, Eq.refl _⟩
    refine ⟨?_, ?_, ?_, ?_, ?_, ?_⟩
    · exact hscratch'.trans (h.scratch.trans hscratch.symm)
    · exact hscripts'.trans ((htake _).2.trans hscripts.symm)
    · refine hcalls'.trans (Eq.trans ?_ hcalls.symm)
      rw [h.calls, h.scratch, (htake _).1]
    · exact hsignal'.trans (h.signal.trans hsignal.symm)
    · exact habandoned'.trans (h.abandoned.trans habandoned.symm)
    · exact hdesk'.trans (h.desk.trans hdesk.symm)

theorem Orderly.rests (h : s.Orderly) (hrests : s.Rests t) : t.Orderly :=
  h.congr hrests.abandoned hrests.signal hrests.scripts

theorem Orderly.textRan (h : s.Orderly) (runs : Bool) (seconds : Float) :
    (s.textRan runs seconds).Orderly := by
  cases runs with
  | false => exact h
  | true =>
    obtain ⟨-, hscripts, -, hsignal, habandoned, -⟩ :=
      ranWithin_eq s (TextLayer.request s.scratch seconds) seconds
    have hlaunched := h.launched (TextLayer.request s.scratch seconds)
    refine hlaunched.congr ?_ ?_ ?_
    · rw [launched_eq]
      exact habandoned
    · rw [launched_eq]
      exact hsignal
    · rw [launched_eq]
      exact hscripts

/-- What is left of the scripts once a text was looked for depends on nothing
else. -/
theorem scripts_textRan (h : s.scripts = t.scripts) (runs : Bool) (seconds : Float) :
    (s.textRan runs seconds).scripts = (t.textRan runs seconds).scripts := by
  cases runs with
  | false => exact h
  | true =>
    have hscripts := (ranWithin_eq s (TextLayer.request s.scratch seconds) seconds).2.1
    have hscripts' := (ranWithin_eq t (TextLayer.request t.scratch seconds) seconds).2.1
    refine hscripts.trans (Eq.trans ?_ hscripts'.symm)
    rw [takeScript, takeScript, h]
    rfl

end Site

namespace TextLayer

variable {installed : List String} {s : Site}

theorem extractPdf_of_patient (h : s.Patient) (seconds : Float) :
    (extractPdf seconds s).1 = given (s.takeScript Tool.textExtractor.name).1 seconds ∧
      (s.textRan true seconds).Rests (extractPdf seconds s).2 ∧
      (extractPdf seconds s).2.tools = s.tools := by
  have hget : (get : Shell Site) s = (.ok s, s) := rfl
  have hrun := run_of_patient h (r := request s.scratch seconds) rfl
  have hgiven := given_of_scratch (s.takeScript Tool.textExtractor.name).1 s.scratch seconds
  have htools : (s.textRan true seconds).tools = s.tools :=
    (Site.ranWithin_eq s (request s.scratch seconds) seconds).2.2.2.2.2.2
  rw [extractPdf, Shell.bind_of_ok hget]
  cases hmade : (s.takeScript Tool.textExtractor.name).1.givenWithin
      (request s.scratch seconds) seconds with
  | error e =>
    rw [hmade] at hgiven
    rw [show (s.takeScript (request s.scratch seconds).program).1.givenWithin _ _ = .error e
      from hmade] at hrun
    rw [Shell.bind_of_error hrun]
    exact ⟨hgiven, .rfl, htools⟩
  | ok made =>
    rw [hmade] at hgiven
    rw [show (s.takeScript (request s.scratch seconds).program).1.givenWithin _ _ = .ok made
      from hmade] at hrun
    rw [Shell.bind_of_ok hrun]
    exact ⟨hgiven, ⟨rfl, rfl, rfl, rfl, rfl, rfl⟩, htools⟩

/-- The text of a document is what its program gives, what it holds itself,
or nothing. -/
theorem extract_of_orderly (h : s.Orderly) (he : s.Equipped installed) {data : Utf8.Bytes}
    (hdata : data.isEmpty = false) (mime : String) (bound : Option Float) :
    (extract data mime bound s).1 =
        found installed (s.takeScript Tool.textExtractor.name).1 data mime bound ∧
      (s.textRan (runs installed mime) (boundInForce bound)).Rests
        (extract data mime bound s).2 ∧
      (extract data mime bound s).2.Equipped installed := by
  rw [extract, found, runs, hdata, if_neg Bool.false_ne_true]
  cases hpdf : Mime.isPdf mime with
  | false =>
    rw [Bool.false_and, if_neg Bool.false_ne_true, if_neg Bool.false_ne_true,
      if_neg Bool.false_ne_true]
    cases hplain : Mime.isPlainText mime with
    | false => exact ⟨rfl, .rfl, he⟩
    | true => exact ⟨rfl, .rfl, he⟩
  | true =>
    rw [Bool.true_and, if_pos rfl]
    obtain ⟨hanswer, hequipped⟩ := he.ask (Tools.answers_has .textExtractor)
    have hasked : Shell.ask (Tools.has .textExtractor) s =
        (.ok (installed.contains Tool.textExtractor.name),
          (s.ask (Tools.has .textExtractor)).2) := by
      rw [← hanswer]
      rfl
    have hrests := Site.rests_ask (s := s) (Tools.has .textExtractor)
    rw [Shell.bind_of_ok hasked]
    cases installed.contains Tool.textExtractor.name with
    | false => exact ⟨rfl, hrests, hequipped⟩
    | true =>
      rw [if_pos rfl, if_pos rfl]
      obtain ⟨hfound, hran, htools⟩ :=
        extractPdf_of_patient (h.rests hrests).patient (boundInForce bound)
      refine ⟨hfound.trans ?_, (hrests.textRan true _).trans hran, hequipped.congr htools⟩
      rw [Site.takeScript, hrests.scripts]
      rfl

end TextLayer

end Intake
