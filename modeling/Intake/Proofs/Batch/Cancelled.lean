import Intake.Proofs.Batch.Outcome
import Intake.Proofs.Program.Courses

/-!
# Cancelled batch runs

What a cancellation does to a batch run.  No program is started once it has
fired.  The text layer and the pages look at it wherever they run a program
or begin a page, and a layer that notices it ends the run with a warning.
The model does not look at it: a cancellation that the layers before it have
left unnoticed does not keep it from being asked.

There are four groups.

* Courses.  `follows_layersRun` and `follows_run` are the courses that the
  layers before the model and the whole run take.
* Reports.  `Batch.IsPlain` is a report without a warning and without hints,
  and `gives_pagesRun_settles` says what a layer makes of one.
* The model.  `modelPart_asks` says that the model is asked in any case.
* Outcome.  `course_run_and_cancelled` is the result.
-/

namespace Intake.Batch

variable {j : Job} {s : Site}

/-! ## Courses -/

/-- A layer after which the run goes on. -/
def GoesOn (outcome : Except Fault (Bool × Report)) : Prop := ∃ r, outcome = .ok (true, r)

theorem follows_onFault {layer : Shell Report} {handle : Fault → Shell Report}
    (hlayer : Shell.Follows Shell.Heedless layer)
    (hhandle : ∀ e, Shell.Follows Shell.Heedless (handle e)) :
    Shell.Follows Shell.Heedless (Shell.onFault layer handle) :=
  hlayer.tryCatch (fun e => .ite (.throw e) (hhandle e)) fun e he =>
    if_pos (by rw [Fault.isSilent, he]; rfl)

theorem follows_orCancelled {stage : LayerKind} {r : Report} {layer : Shell Report}
    (h : Shell.Follows Shell.Heedless layer) :
    Shell.Follows GoesOn (orCancelled j stage r layer) := by
  refine (h.map _).tryCatch_of (fun e => .ite ?_ (.throw e)) (fun _ _ => nofun) fun e t hgoes => ?_
  · exact .of_rests fun _ => ⟨rfl, rfl, rfl, rfl, rfl, rfl⟩
  · obtain ⟨r', hr'⟩ := hgoes
    split at hr'
    · exact absurd (Prod.mk.inj (Except.ok.inj hr')).1 Bool.false_ne_true
    · cases hr'

theorem follows_textRun (j : Job) : Shell.Follows GoesOn (textRun j) := by
  refine follows_orCancelled (.bind (.report _) fun _ => follows_onFault ?_ fun e => ?_)
  · exact (isInherited_follows.extract _ _ _).bind fun text => (Shell.Follows.report _).bind
      fun _ => .pure _
  · exact (Shell.Follows.report _).bind fun _ => .pure _

theorem follows_pagesRun (j : Job) (r : Report) : Shell.Follows GoesOn (pagesRun j r) := by
  rw [pagesRun]
  refine .ite (follows_orCancelled ?_) (.pure _)
  refine .bind (isInherited_follows.ask _) fun available => .ite ?_ ?_
  · exact (Shell.Follows.report _).bind fun _ => .pure _
  · refine (Shell.Follows.report _).bind fun _ => follows_onFault ?_ fun e => ?_
    · exact (isInherited_follows.read _ _ _).bind fun p => (Shell.Follows.report _).bind
        fun _ => .pure _
    · exact (Shell.Follows.report _).bind fun _ => .pure _

theorem follows_layersRun (j : Job) : Shell.Follows GoesOn (layersRun j) := by
  refine (follows_textRun j).bind_of (fun ⟨goesOn, r⟩ => ?_) (fun ⟨goesOn, r⟩ t h => ?_)
    fun e h => h
  · exact .ite (follows_pagesRun j r) (.pure _)
  · cases goesOn with
    | true => exact ⟨r, rfl⟩
    | false =>
      obtain ⟨r', hr'⟩ := h
      exact absurd (Prod.mk.inj (Except.ok.inj hr')).1 Bool.false_ne_true

theorem follows_readReply (reply : String) {P : Except Fault Hints → Prop} :
    Shell.Follows P (Shell.readReply reply) := by
  refine .of_rests fun s => ?_
  rw [readReply_eq]
  exact Site.rests_records (fun text => ⟨.reply, .debug, text⟩) (Reply.remarks reply) s

theorem follows_modelStage (j : Job) (r : Report) (client : ChatClient) :
    Shell.Follows (fun _ => False) (modelStage j r client) := by
  refine .course_bind (.report _) fun _ => .course_bind ?_ fun answer => ?_
  · have hcall : Shell.Follows (fun _ => False)
        (Except.ok (ε := Report) <$> Shell.complete client (j.prompt r).messages) := by
      rw [map_eq_pure_bind]
      exact (Shell.follows_complete client _).course_bind fun reply => .pure _
    refine hcall.course_tryCatch fun e => .ite (.throw e) ?_
    exact .course_bind (.report _) fun _ => .pure _
  · cases answer with
    | error r' => exact .pure r'
    | ok reply =>
      refine .course_tryCatch ?_ fun e => ?_
      · exact .course_bind (follows_readReply reply) fun hints => .course_bind (.report _)
          fun _ => .pure _
      · cases e with
        | reply text raw => exact .course_bind (.report _) fun _ => .pure _
        | _ => exact .throw _

theorem follows_modelPart (j : Job) (r : Report) :
    Shell.Follows (fun _ => False) (modelPart j r) := by
  rw [modelPart]
  cases j.modelInUse with
  | none => exact .pure r
  | some client =>
    refine .ite (.course_bind ?_ fun p => .pure p.2) (.pure r)
    refine .course_tryCatch ?_ fun e => .ite (.course_bind (.report _) fun _ => .pure _) (.throw e)
    rw [map_eq_pure_bind]
    exact (follows_modelStage j r client).course_bind fun r' => .pure _

theorem follows_run (j : Job) : Shell.Follows (fun _ => False) (run j) := by
  have hstages : Shell.Follows (fun _ => False) (stages j) := by
    rw [show stages j = _ from funext (stages_eq j)]
    exact (follows_layersRun j).course.course_bind fun p => .ite (follows_modelPart j p.2) (.pure _)
  rw [run]
  refine .ite (.pure _) (.course_bind (.report _) fun _ => ?_)
  exact hstages.course_bind fun r => .course_bind (.report _) fun _ => .pure r

/-! ## Reports -/

/-- A report without a warning and without anything from a model. -/
structure IsPlain (r : Report) : Prop where
  warnings : r.errors.warnings = []
  hints : r.hints = none
  modelUsed : r.modelUsed = false

/-- What a layer makes of a report.  When the run goes on the report is plain,
and otherwise one warning was added to what there was before the layer. -/
def Settles (j : Job) (stage : LayerKind) (r : Report) (p : Bool × Report) : Prop :=
  if p.1 then IsPlain p.2
  else p.2 = recordFailure r (.cancelled stage.name (some j.filename))

theorem isPlain_default : IsPlain {} := ⟨rfl, rfl, rfl⟩

theorem IsPlain.recordFailure {r : Report} (h : IsPlain r) {e : ErrorRecord}
    (he : e.severity = .error) : IsPlain (recordFailure r e) := by
  refine ⟨?_, h.hints, h.modelUsed⟩
  rw [Batch.recordFailure, ErrorLog.add, if_neg (by rw [he]; exact Severity.noConfusion)]
  exact h.warnings

theorem IsPlain.withPages {r : Report} (h : IsPlain r) (p : Page) : IsPlain (withPages r p) := by
  rw [Batch.withPages]
  split
  · exact h
  · exact ⟨h.warnings, h.hints, h.modelUsed⟩

/-- The one warning of a cancellation. -/
theorem warnings_recordFailure_cancelled {r : Report} (h : IsPlain r) (phase : String)
    (filename : Option String) :
    (recordFailure r (.cancelled phase filename)).errors.warnings =
      [.cancelled phase filename] := by
  have hadd : (recordFailure r (.cancelled phase filename)).errors.warnings =
      r.errors.warnings ++ [.cancelled phase filename] := rfl
  rw [hadd, h.warnings, List.nil_append]

theorem gives_orCancelled {stage : LayerKind} {r : Report} {layer : Shell Report}
    (h : Shell.Gives IsPlain layer) :
    Shell.Gives (Settles j stage r) (orCancelled j stage r layer) := by
  have hgoes : Shell.Gives (Settles j stage r) ((true, ·) <$> layer) := .map h
  refine hgoes.tryCatch fun e => .ite (.bind fun _ => .pure ?_) (.throw e)
  exact rfl

theorem gives_textRun (j : Job) : Shell.Gives (Settles j .text {}) (textRun j) := by
  refine gives_orCancelled (.bind fun _ => .tryCatch ?_ fun e => .ite (.throw e) ?_)
  · exact .bind fun text => .bind fun _ => .pure ⟨rfl, rfl, rfl⟩
  · exact .bind fun _ => .pure (isPlain_default.recordFailure rfl)

theorem gives_pagesRun_settles {r : Report} (h : IsPlain r) :
    Shell.Gives (Settles j .ocr r) (pagesRun j r) := by
  rw [pagesRun]
  refine .ite (gives_orCancelled (.bind fun available => .ite ?_ ?_)) (.pure h)
  · exact .bind fun _ => .pure h
  · refine .bind fun _ => .tryCatch ?_ fun e => .ite (.throw e) ?_
    · exact .bind fun p => .bind fun _ => .pure (h.withPages p)
    · exact .bind fun _ => .pure (h.recordFailure rfl)

/-! ## The model -/

/-- The calls of a model that a report gives rise to. -/
def calls (j : Job) (r : Report) : List ChatRequest :=
  match j.modelInUse with
  | some client =>
    if hasText r then [.complete client.model (j.prompt r).messages] else []
  | none => []

/-- The model is asked once, whether or not the cancellation has fired, and
what comes of it is no warning. -/
theorem modelRun_asks {d : Desk} {t : Site} (ht : t.AtDesk d) {r : Report} (hr : IsPlain r)
    (client : ChatClient) :
    ∃ outcome t', modelRun j r client t = (outcome, t') ∧
      t'.AtDesk (asked d client (j.prompt r).messages) ∧
      ∀ p, outcome = .ok p → p.2.errors.warnings = [] := by
  have hbegun := atDesk_begun ht "llm" client.model
  have hasked := atDesk_complete hbegun client (j.prompt r).messages
  have hanswer := (complete_eq client (j.prompt r).messages (begun "llm" client.model t)).1
  rcases hcall : Shell.complete client (j.prompt r).messages (begun "llm" client.model t)
    with ⟨outcome, u⟩
  rw [hcall] at hasked hanswer
  cases outcome with
  | error e =>
    rw [hbegun.desk] at hanswer
    have hordinary := complete_error_isOrdinary ht hanswer.symm
    obtain ⟨t', ht', hrun⟩ := modelRun_of_fault hcall hordinary hasked
    refine ⟨_, t', hrun, ht', fun p hp => ?_⟩
    rw [← Except.ok.inj hp]
    exact (hr.recordFailure rfl).warnings
  | ok reply =>
    obtain ⟨t', ht', hrun⟩ := modelRun_of_reply hcall hasked
    refine ⟨_, t', hrun, ht', fun p hp => ?_⟩
    split at hp
    · rw [← Except.ok.inj hp]
      exact hr.warnings
    · rw [← Except.ok.inj hp]
      exact (hr.recordFailure rfl).warnings
    · cases hp

/-- A run that gets as far as its model asks it when there is some text. -/
theorem modelPart_asks {d : Desk} {t : Site} (ht : t.AtDesk d) {r : Report} (hr : IsPlain r) :
    (modelPart j r t).2.desk.requests = d.requests ++ calls j r ∧
      ∀ r', (modelPart j r t).1 = .ok r' → r'.errors.warnings = [] := by
  have hidle : (pure r : Shell Report) t = (.ok r, t) ∧ t.desk.requests = d.requests ++ [] := by
    refine ⟨rfl, ?_⟩
    rw [ht.desk, List.append_nil]
  rw [modelPart, calls]
  cases j.modelInUse with
  | none =>
    refine ⟨hidle.2, fun r' hr' => ?_⟩
    rw [← Except.ok.inj hr']
    exact hr.warnings
  | some client =>
    cases htext : hasText r with
    | false =>
      refine ⟨hidle.2, fun r' hr' => ?_⟩
      rw [← Except.ok.inj hr']
      exact hr.warnings
    | true =>
      obtain ⟨outcome, t', hrun, ht', hwarnings⟩ := modelRun_asks ht hr client
      have hrequests : t'.desk.requests =
          d.requests ++ [.complete client.model (j.prompt r).messages] := by
        rw [ht'.desk, requests_asked]
      dsimp only
      rw [if_pos rfl, if_pos rfl, Shell.bind_pure_eq, hrun]
      refine ⟨hrequests, fun r' hr' => ?_⟩
      cases outcome with
      | error e => cases hr'
      | ok p =>
        rw [← Except.ok.inj hr']
        exact hwarnings p rfl

/-! ## Outcome -/

/-- A layer before the model begins with the report of the layers that have
finished. -/
inductive Begins (j : Job) (s : Site) : LayerKind → Report → Prop where
  | text : Begins j s .text {}
  | pages {r : Report} {t : Site} (h : ReachesPages j s r t) : Begins j s .ocr r

/-- A layer notices the cancellation, and the run ends with the report of the
layers that had finished and one warning.  The model is not asked. -/
def Stops (j : Job) (s : Site) : Prop :=
  ∃ stage r, Begins j s stage r ∧
    (run j s).1 = .ok (recordFailure r (.cancelled stage.name (some j.filename))) ∧
    (recordFailure r (.cancelled stage.name (some j.filename))).errors.warnings =
      [.cancelled stage.name (some j.filename)] ∧
    r.hints = none ∧ r.modelUsed = false ∧ (run j s).2.desk = s.desk

/-- No layer before the model notices a cancellation, and the run goes on to
its model, which is asked when there is some text.  There is no warning. -/
def PassesOn (j : Job) (s : Site) : Prop :=
  ∃ r u, layersRun j (started j s) = (.ok (true, r), u) ∧
    (u.fired = true → s.Unnoticed u) ∧
    (run j s).2.desk.requests = s.desk.requests ++ calls j r ∧
    ∀ r', (run j s).1 = .ok r' → r'.errors.warnings = []

theorem rests_started (j : Job) (s : Site) : s.Rests (started j s) :=
  ⟨rfl, rfl, rfl, rfl, rfl, rfl⟩

theorem stops_of_layersRun (hdata : j.data.isEmpty = false) {stage : LayerKind} {r r' : Report}
    {t : Site} (hbegins : Begins j s stage r) (hr : IsPlain r)
    (hsettles : Settles j stage r (false, r')) (ht : t.desk = s.desk)
    (hlayers : layersRun j (started j s) = (.ok (false, r'), t)) : Stops j s := by
  obtain ⟨t', hrun, hdesk⟩ := run_of_stages_ok hdata (stages_of_layersRun hlayers)
  have hr' : r' = recordFailure r (.cancelled stage.name (some j.filename)) := hsettles
  refine ⟨stage, r, hbegins, ?_, warnings_recordFailure_cancelled hr _ _, hr.hints, hr.modelUsed,
    ?_⟩
  · rw [hrun, hr']
  · rw [hrun, hdesk, ht]

theorem passesOn_of_layersRun (hdata : j.data.isEmpty = false) {r : Report} {t : Site}
    (hr : IsPlain r) (ht : t.AtDesk s.desk)
    (hlayers : layersRun j (started j s) = (.ok (true, r), t)) : PassesOn j s := by
  have hfollows := follows_layersRun j (started j s)
  rw [hlayers] at hfollows
  have hstages := stages_of_layersRun hlayers
  rw [if_pos rfl] at hstages
  obtain ⟨hrequests, hwarnings⟩ := modelPart_asks (j := j) ht hr
  have hunnoticed : t.fired = true → s.Unnoticed t := fun hfired =>
    .of_course (.single (.rests (rests_started j s)))
      (fun h => .before h (rests_started j s)) (hfollows.2 ⟨r, rfl⟩ hfired)
  rcases hpart : modelPart j r t with ⟨outcome, u⟩
  rw [hpart] at hstages hrequests hwarnings
  cases outcome with
  | ok r' =>
    obtain ⟨t', hrun, hdesk⟩ := run_of_stages_ok hdata hstages
    rw [← hdesk] at hrequests
    exact ⟨r, t, hlayers, hunnoticed, by rw [hrun]; exact hrequests, by rw [hrun]; exact hwarnings⟩
  | error e =>
    have hrun := run_of_stages_error hdata hstages
    exact ⟨r, t, hlayers, hunnoticed, by rw [hrun]; exact hrequests, by rw [hrun]; exact hwarnings⟩

/-- A run at an attended site starts no program once the cancellation has
fired.  Either a layer before the model notices it, and the run ends with one
warning and what was finished; or none does, and the model is asked although
the cancellation may have fired: before the run, when no program was to be
run, or during the last program, which it did not stop. -/
theorem course_run_and_cancelled (j : Job) {s : Site} (hs : s.Attended) (hdata : j.data ≠ []) :
    s.Course (run j s).2 ∧ (Stops j s ∨ PassesOn j s) := by
  have hne : j.data.isEmpty = false := by simpa using hdata
  refine ⟨(follows_run j s).1, ?_⟩
  obtain ⟨⟨goesOn, r⟩, t, htext, ht⟩ := (keeps_textRun j).returns (atDesk_started hs j)
  have hsettles := gives_textRun j _ _ _ htext
  cases goesOn with
  | false =>
    left
    exact stops_of_layersRun hne .text isPlain_default hsettles ht.desk (Shell.bind_of_ok htext)
  | true =>
    obtain ⟨⟨goesOn', r'⟩, t', hpages, ht'⟩ := (keeps_pagesRun j r).returns ht
    have hsettles' := gives_pagesRun_settles hsettles _ _ _ hpages
    have hlayers : layersRun j (started j s) = (.ok (goesOn', r'), t') :=
      (Shell.bind_of_ok htext).trans hpages
    cases goesOn' with
    | false =>
      left
      exact stops_of_layersRun hne (.pages ⟨hne, htext⟩) hsettles hsettles' ht'.desk hlayers
    | true => exact Or.inr (passesOn_of_layersRun hne hsettles' ht' hlayers)

/-- A site at which the cancellation fired before the run. -/
def cancelledBefore : Site where
  signal := some true
  desk := { replies := [{ answer := .whole (some "\x7b\x7d") }] }

theorem attended_cancelledBefore : cancelledBefore.Attended := by
  refine ⟨rfl, ?_, ?_, ?_⟩
  · intro p hp
    cases hp
  · intro p hp
    cases hp
  · intro r hr
    obtain rfl := List.mem_singleton.1 hr
    exact Answer.noConfusion

theorem course_run_note_and_cancelled :
    cancelledBefore.Course (run note cancelledBefore).2 ∧
      (Stops note cancelledBefore ∨ PassesOn note cancelledBefore) :=
  course_run_and_cancelled note attended_cancelledBefore (List.cons_ne_nil _ _)

/-- A cancellation that fired before the run of a note does not keep its
model from being asked. -/
theorem not_requests_eq_of_fired :
    ¬ ∀ (j : Job) (s : Site), s.Attended → j.data ≠ [] → s.fired = true →
      (run j s).2.desk.requests = s.desk.requests := by
  intro h
  have hnone := h note cancelledBefore attended_cancelledBefore (List.cons_ne_nil _ _) rfl
  have hone : (run note cancelledBefore).2.desk.requests.length = 1 := by decide +kernel
  rw [hnone] at hone
  cases hone

end Intake.Batch
