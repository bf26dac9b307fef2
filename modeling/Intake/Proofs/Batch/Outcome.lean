import Intake.Proofs.Hints.Readable
import Intake.Proofs.Program.Attended

/-!
# Outcomes of batch runs

A batch run at an attended site gives a report in which every failure of a
layer is recorded.  There is one way out: a reply with a number too large
to be rounded breaks the run off.

There are six groups.

* Courses.  `Batch.ReachesPages` and `Batch.ReachesModel` say how far a run
  gets; `Batch.Meets` are the failures it meets on the way, as the records
  they are to leave.
* Layers.  The text layer and the pages fail with no fault of their own;
  one that fails in an ordinary way leaves its record.
* The model.  `modelRun_eq_of_fault` and `modelRun_eq_of_reply` say what a
  call of the model comes to.
* Records.  No layer drops a record.
* Runs.  `exists_earlier` puts the layers before the model together.
* Outcome.  `run_error_iff` is the result, with one lemma for each way in
  which a run may end.
-/

namespace Intake

namespace Batch

/-! ## Courses -/

/-- The site at which the first layer of a run begins. -/
def started (j : Job) (s : Site) : Site := (Shell.report (·.startRun j.filename) s).2

/-- The site at which a layer does its work. -/
def begun (layer detail : String) (s : Site) : Site :=
  (Shell.report (·.startLayer layer detail) s).2

/-- The text layer of a run. -/
def textRun (j : Job) : Shell (Bool × Report) := orCancelled j .text {} (textStage j {})

/-- The pages of a run. -/
def pagesRun (j : Job) (r : Report) : Shell (Bool × Report) :=
  if j.hasPages then orCancelled j .ocr r (pagesStage j r) else pure (true, r)

/-- The layers of a run before the model. -/
def layersRun (j : Job) : Shell (Bool × Report) := do
  let (goesOn, r) ← textRun j
  if goesOn then pagesRun j r else return (false, r)

/-- The model of a run. -/
def modelRun (j : Job) (r : Report) (client : ChatClient) : Shell (Bool × Report) :=
  orCancelled j .llm r (modelStage j r client)

/-- Whether the pages can be read. -/
def pagesAvailable (j : Job) : Shell Bool :=
  Shell.ask (if Mime.isPdf j.mime then Tools.pdfOcrAvailable else Tools.imageOcrAvailable)

/-- A run goes on to its pages, with this report and at this site. -/
structure ReachesPages (j : Job) (s : Site) (r : Report) (t : Site) : Prop where
  data : j.data.isEmpty = false
  text : textRun j (started j s) = (.ok (true, r), t)

/-- A run goes on to its model, with this report and at this site. -/
structure ReachesModel (j : Job) (s : Site) (client : ChatClient) (r : Report) (t : Site) :
    Prop where
  client : j.modelInUse = some client
  hasText : hasText r = true
  pages : ∃ r' t', ReachesPages j s r' t' ∧ pagesRun j r' t' = (.ok (true, r), t)

/-- The record that a fault of the text layer or of the pages leaves. -/
def faultRecord (j : Job) (stage : LayerKind) (e : Fault) : ErrorRecord :=
  if e.isCancelled then .cancelled stage.name (some j.filename)
  else
    match stage with
    | .text => .textExtraction ("text extraction: " ++ e.message) (some j.filename) (some e)
    | _ => .ocr ("ocr: " ++ e.message) (some j.filename) (some e)

/-- The record that a failed call of the model leaves. -/
def callRecord (j : Job) (e : Fault) : ErrorRecord :=
  .llmApi ("llm chat: " ++ e.message) (some j.filename)

/-- The record that a reply leaves which is no JSON object. -/
def replyRecord (j : Job) (m : Reply.Malformed) (reply : String) : ErrorRecord :=
  .llmParse ("parse llm response: " ++ (Fault.reply m.message reply).message) (some j.filename)
    (some reply)

/-- The call of a model fails, or its reply is no JSON object. -/
inductive ModelFails (j : Job) (client : ChatClient) (r : Report) (t : Site) : ErrorRecord → Prop
    where
  | call {e : Fault} {u : Site}
      (h : Shell.complete client (j.prompt r).messages (begun "llm" client.model t)
        = (.error e, u)) : ModelFails j client r t (callRecord j e)
  | reply {text : String} {m : Reply.Malformed} {u : Site}
      (h : Shell.complete client (j.prompt r).messages (begun "llm" client.model t)
        = (.ok text, u))
      (hread : Reply.read text = .error (.malformed m)) :
      ModelFails j client r t (replyRecord j m text)

/-- A run meets a failure that is to leave this record. -/
inductive Meets (j : Job) (s : Site) : ErrorRecord → Prop where
  | text {e : Fault} {t : Site} (hdata : j.data.isEmpty = false)
      (h : TextLayer.extract j.data j.mime (some j.settings.textTimeout)
        (begun "text" j.mime (started j s)) = (.error e, t)) : Meets j s (faultRecord j .text e)
  | pages {r : Report} {t u v : Site} {e : Fault} (hreach : ReachesPages j s r t)
      (hpages : j.hasPages = true) (havailable : pagesAvailable j t = (.ok true, u))
      (h : PageReading.read j.data j.mime j.settings.maxPages
        (begun "ocr" Tool.ocrEngine.name u) = (.error e, v)) : Meets j s (faultRecord j .ocr e)
  | model {client : ChatClient} {r : Report} {t : Site} {record : ErrorRecord}
      (hreach : ReachesModel j s client r t) (h : ModelFails j client r t record) :
      Meets j s record

end Batch

/-- The text of the next answer of a model; `none` when the call fails. -/
def Desk.reply? (d : Desk) : Option String :=
  match (d.replies.headD .none).answer with
  | .refuses _ => none
  | .whole text => some (text.getD "")
  | .streamed _ => some ""

namespace Batch

/-! ## Layers -/

variable {j : Job} {d : Desk}

theorem keeps_orCancelled {stage : LayerKind} {r : Report} {layer : Shell Report}
    (h : Shell.Keeps (Site.AtDesk d) (fun e => e.isCancelled = true) layer) :
    Shell.Keeps (Site.AtDesk d) (fun _ => False) (orCancelled j stage r layer) := by
  refine h.map.tryCatch fun e he => ?_
  rw [if_pos he]
  exact (Shell.keeps_report _).bind fun _ => .pure _

/-- A layer fails with nothing but a cancellation when its faults are
handled. -/
theorem keeps_onFault {layer : Shell Report} {handle : Fault → Shell Report}
    (hlayer : Shell.Keeps (Site.AtDesk d) Fault.IsOrdinary layer)
    (hhandle : ∀ e, Shell.Keeps (Site.AtDesk d) (fun e => e.isCancelled = true) (handle e)) :
    Shell.Keeps (Site.AtDesk d) (fun e => e.isCancelled = true) (Shell.onFault layer handle) := by
  refine hlayer.tryCatch fun e he => ?_
  have hpresent := he.isAbandoned_eq_false
  cases hcancelled : e.isCancelled with
  | true =>
    rw [if_pos (by simp [Fault.isSilent, hcancelled])]
    exact .throw hcancelled
  | false =>
    rw [if_neg (by simp [Fault.isSilent, hcancelled, hpresent])]
    exact hhandle e

theorem keeps_textRun (j : Job) :
    Shell.Keeps (Site.AtDesk d) (fun _ => False) (textRun j) := by
  refine keeps_orCancelled ((Shell.keeps_report _).bind fun _ => keeps_onFault ?_ fun e => ?_)
  · exact (keeps_extract _ _ _).bind fun text => (Shell.keeps_report _).bind fun _ => .pure _
  · exact (Shell.keeps_report _).bind fun _ => .pure _

theorem keeps_pagesRun (j : Job) (r : Report) :
    Shell.Keeps (Site.AtDesk d) (fun _ => False) (pagesRun j r) := by
  rw [pagesRun]
  refine .ite (keeps_orCancelled ?_) (.pure _)
  refine (Shell.keeps_ask _).bind fun available => .ite ?_ ?_
  · exact (Shell.keeps_report _).bind fun _ => .pure _
  · refine (Shell.keeps_report _).bind fun _ => keeps_onFault ?_ fun e => ?_
    · exact (keeps_read _ _ _).bind fun p => (Shell.keeps_report _).bind fun _ => .pure _
    · exact (Shell.keeps_report _).bind fun _ => .pure _

theorem orCancelled_of_ok {stage : LayerKind} {r r' : Report} {layer : Shell Report} {s t : Site}
    (h : layer s = (.ok r', t)) : orCancelled j stage r layer s = (.ok (true, r'), t) :=
  Shell.tryCatch_of_ok (Shell.map_of_ok h)

theorem orCancelled_of_cancelled (stage : LayerKind) (r : Report) {layer : Shell Report}
    {s t : Site} {e : Fault} (h : layer s = (.error e, t)) (he : e.isCancelled = true) :
    ∃ book, orCancelled j stage r layer s =
      (.ok (false, recordFailure r (.cancelled stage.name (some j.filename))),
        { t with book := book }) := by
  rw [orCancelled, Shell.tryCatch_of_error (Shell.map_of_error h), if_pos he]
  exact ⟨_, Shell.bind_of_ok rfl⟩

theorem orCancelled_of_error {stage : LayerKind} {r : Report} {layer : Shell Report}
    {s t : Site} {e : Fault} (h : layer s = (.error e, t)) (he : e.isCancelled = false) :
    orCancelled j stage r layer s = (.error e, t) := by
  rw [orCancelled, Shell.tryCatch_of_error (Shell.map_of_error h), if_neg (by simp [he])]
  rfl

/-- A layer that fails in an ordinary way leaves a record of its fault, or
one of its cancellation. -/
theorem orCancelled_of_fault {stage : LayerKind} {r : Report} {x layer : Shell Report}
    {failed : Fault → Logbook → Logbook} {record : Fault → ErrorRecord} {s u t : Site} {e : Fault}
    (hx : x s = Shell.onFault layer
      (fun e => do Shell.report (failed e); return recordFailure r (record e)) u)
    (h : layer u = (.error e, t)) (he : e.IsOrdinary) :
    ∃ t', orCancelled j stage r x s = (.ok (! e.isCancelled, recordFailure r
      (if e.isCancelled then .cancelled stage.name (some j.filename) else record e)), t') := by
  have hpresent := he.isAbandoned_eq_false
  rw [Shell.onFault, Shell.tryCatch_of_error h] at hx
  cases hcancelled : e.isCancelled with
  | true =>
    rw [if_pos (by simp [Fault.isSilent, hcancelled])] at hx
    obtain ⟨book, hstops⟩ := orCancelled_of_cancelled stage r hx hcancelled
    exact ⟨_, hstops⟩
  | false =>
    rw [if_neg (by simp [Fault.isSilent, hcancelled, hpresent])] at hx
    exact ⟨_, orCancelled_of_ok (hx.trans (Shell.bind_of_ok rfl))⟩

/-- A layer whose faults leave records has given its report, or it has failed
and left a record of its fault or of its cancellation. -/
theorem orCancelled_cases {stage : LayerKind} {r r' : Report} {x layer : Shell Report}
    {failed : Fault → Logbook → Logbook} {record : Fault → ErrorRecord} {s t u : Site} {b : Bool}
    (hx : x s = Shell.onFault layer
      (fun e => do Shell.report (failed e); return recordFailure r (record e)) u)
    (h : orCancelled j stage r x s = (.ok (b, r'), t)) :
    (b = true ∧ layer u = (.ok r', t)) ∨
      ∃ e v book, layer u = (.error e, v) ∧ t = { v with book := book } ∧
        ((b = true ∧ r' = recordFailure r (record e)) ∨
          (b = false ∧ r' = recordFailure r (.cancelled stage.name (some j.filename)))) := by
  rcases hlayer : layer u with ⟨outcome, v⟩
  cases outcome with
  | ok r'' =>
    rw [Shell.onFault, Shell.tryCatch_of_ok hlayer] at hx
    rw [orCancelled_of_ok hx] at h
    cases h
    exact Or.inl ⟨rfl, rfl⟩
  | error e =>
    right
    rw [Shell.onFault, Shell.tryCatch_of_error hlayer] at hx
    cases hcancelled : e.isCancelled with
    | true =>
      rw [if_pos (by simp [Fault.isSilent, hcancelled])] at hx
      obtain ⟨book, hstops⟩ := orCancelled_of_cancelled stage r hx hcancelled
      cases hstops.symm.trans h
      exact ⟨e, v, book, rfl, rfl, Or.inr ⟨rfl, rfl⟩⟩
    | false =>
      cases habandoned : e.isAbandoned with
      | true =>
        rw [if_pos (by simp [Fault.isSilent, habandoned])] at hx
        rw [orCancelled_of_error hx hcancelled] at h
        cases h
      | false =>
        rw [if_neg (by simp [Fault.isSilent, hcancelled, habandoned])] at hx
        rw [orCancelled_of_ok (hx.trans (Shell.bind_of_ok rfl))] at h
        cases h
        exact ⟨e, v, _, rfl, rfl, Or.inl ⟨rfl, rfl⟩⟩

theorem textRun_of_fault {t u : Site} {e : Fault}
    (h : TextLayer.extract j.data j.mime (some j.settings.textTimeout) (begun "text" j.mime t)
      = (.error e, u)) (he : e.IsOrdinary) :
    ∃ t', textRun j t = (.ok (! e.isCancelled, recordFailure {} (faultRecord j .text e)), t') :=
  orCancelled_of_fault (Shell.bind_of_ok rfl) (Shell.bind_of_error h) he

theorem pagesRun_of_fault {r : Report} {t u v : Site} {e : Fault} (hpages : j.hasPages = true)
    (havailable : pagesAvailable j t = (.ok true, u))
    (h : PageReading.read j.data j.mime j.settings.maxPages (begun "ocr" Tool.ocrEngine.name u)
      = (.error e, v)) (he : e.IsOrdinary) :
    ∃ t', pagesRun j r t = (.ok (! e.isCancelled, recordFailure r (faultRecord j .ocr e)), t') := by
  have hstage : pagesStage j r t = Shell.onFault _ _ (begun "ocr" Tool.ocrEngine.name u) :=
    (Shell.bind_of_ok havailable).trans (Shell.bind_of_ok rfl)
  rw [pagesRun, if_pos hpages]
  exact orCancelled_of_fault hstage (Shell.bind_of_error h) he

/-! ## The model -/

/-- What is left of a model after one call. -/
def asked (d : Desk) (client : ChatClient) (messages : List Message) : Desk :=
  (d.complete client.model messages).2.2

theorem requests_asked (d : Desk) (client : ChatClient) (messages : List Message) :
    (asked d client messages).requests = d.requests ++ [.complete client.model messages] := rfl

theorem atDesk_begun {s : Site} (h : s.AtDesk d) (layer detail : String) :
    (begun layer detail s).AtDesk d := h.congr rfl rfl rfl rfl

/-- A call is answered by the next answer of the model. -/
theorem complete_eq (client : ChatClient) (messages : List Message) (s : Site) :
    (Shell.complete client messages s).1 = (s.desk.complete client.model messages).1 ∧
      (Shell.complete client messages s).2.abandoned = s.abandoned ∧
      (Shell.complete client messages s).2.scripts = s.scripts ∧
      (Shell.complete client messages s).2.signal = s.signal ∧
      (Shell.complete client messages s).2.desk = asked s.desk client messages := by
  rw [Shell.complete, asked]
  rcases s.desk.complete client.model messages with ⟨answer, seconds, desk⟩
  cases answer with
  | ok reply => exact ⟨rfl, rfl, rfl, rfl, rfl⟩
  | error e => exact ⟨rfl, rfl, rfl, rfl, rfl⟩

theorem atDesk_complete {s : Site} (h : s.AtDesk d) (client : ChatClient)
    (messages : List Message) :
    (Shell.complete client messages s).2.AtDesk (asked d client messages) := by
  obtain ⟨-, habandoned, hscripts, hsignal, hdesk⟩ := complete_eq client messages s
  refine ⟨⟨?_, ?_, ?_, ?_⟩, ?_⟩
  · rw [habandoned]
    exact h.attended.present
  · rw [hscripts]
    exact h.attended.starts
  · rw [hscripts, hsignal]
    exact h.attended.ends
  · rw [hdesk]
    intro r hr
    exact h.attended.answers r (List.mem_of_mem_tail hr)
  · rw [hdesk, h.desk]

theorem complete_ok_iff {client : ChatClient} {messages : List Message} {reply : String} :
    (d.complete client.model messages).1 = .ok reply ↔ d.reply? = some reply := by
  show (match (d.replies.headD .none).answer with
    | .refuses e => .error e
    | .whole text => .ok (text.getD "")
    | .streamed _ => .ok "" : Except Fault String) = .ok reply ↔ _
  rw [Desk.reply?]
  cases (d.replies.headD .none).answer with
  | refuses e => simp
  | whole text => simp
  | streamed parts => simp

theorem complete_error_isOrdinary {s : Site} (h : s.AtDesk d) {client : ChatClient}
    {messages : List Message} {e : Fault}
    (he : (d.complete client.model messages).1 = .error e) : e.IsOrdinary := by
  have hanswer : (match (d.replies.headD .none).answer with
    | .refuses e => .error e
    | .whole text => .ok (text.getD "")
    | .streamed _ => .ok "" : Except Fault String) = .error e := he
  cases hreplies : d.replies with
  | nil =>
    rw [hreplies] at hanswer
    obtain rfl := Except.error.inj hanswer
    exact Fault.noConfusion
  | cons r rest =>
    rw [hreplies] at hanswer
    have hmem : r ∈ s.desk.replies := by
      rw [h.desk, hreplies]
      exact List.mem_cons_self
    rintro rfl
    apply h.attended.answers r hmem
    cases hr : r.answer with
    | refuses f =>
      simp only [List.headD_cons, hr] at hanswer
      rw [Except.error.inj hanswer]
    | whole text => simp [hr] at hanswer
    | streamed parts => simp [hr] at hanswer

/-- A call that fails leaves its record, unless its caller was given up. -/
theorem modelRun_eq_of_fault {r : Report} {client : ChatClient} {t u : Site} {e : Fault}
    (h : Shell.complete client (j.prompt r).messages (begun "llm" client.model t)
      = (.error e, u)) :
    modelRun j r client t =
      if e.isAbandoned then (.error e, u)
      else (.ok (true, recordFailure r (callRecord j e)),
        (Shell.report (·.error "LLM call failed" (some e) []) u).2) := by
  have hask : askModel j r client (begun "llm" client.model t) = _ :=
    Shell.tryCatch_of_error (Shell.map_of_error h)
  cases he : e.isAbandoned with
  | true =>
    rw [he, if_pos rfl] at hask
    have hstage : modelStage j r client t = (.error e, u) :=
      (Shell.bind_of_ok rfl).trans (Shell.bind_of_error hask)
    have hkept : e.isCancelled = false := by
      cases e with
      | abandoned => rfl
      | _ => cases he
    exact orCancelled_of_error hstage hkept
  | false =>
    rw [he, if_neg Bool.false_ne_true] at hask
    have hstage : modelStage j r client t = (.ok (recordFailure r (callRecord j e)), _) :=
      (Shell.bind_of_ok rfl).trans (Shell.bind_of_ok (hask.trans (Shell.bind_of_ok rfl)))
    exact orCancelled_of_ok hstage

/-- The hints of a reply are read; a reply that is no JSON object leaves its
record, and one with a number too large to be rounded breaks off.  Only the
logbook is changed. -/
theorem modelRun_eq_of_reply {r : Report} {client : ChatClient} {t u : Site} {reply : String}
    (h : Shell.complete client (j.prompt r).messages (begun "llm" client.model t)
      = (.ok reply, u)) :
    ∃ book, modelRun j r client t =
      (match Reply.read reply with
        | .ok hints => .ok (true, { r with hints := some hints, modelUsed := true })
        | .error (.malformed m) => .ok (true, recordFailure r (replyRecord j m reply))
        | .error .overflow => .error .overflow, { u with book := book }) := by
  have hask : askModel j r client (begun "llm" client.model t) = (.ok (.ok reply), u) := by
    rw [askModel]
    exact Shell.tryCatch_of_ok (Shell.map_of_ok h)
  have hstage : modelStage j r client t = readHints j r reply u :=
    (Shell.bind_of_ok rfl).trans (Shell.bind_of_ok hask)
  obtain ⟨book, hbook⟩ := Site.notes_eq .reply .debug (Reply.remarks reply) u
  have hreply := readReply_eq reply u
  rw [hbook] at hreply
  cases hread : Reply.read reply with
  | ok hints =>
    rw [hread] at hreply
    have hhints : readHints j r reply u =
        (.ok { r with hints := some hints, modelUsed := true }, _) :=
      Shell.tryCatch_of_ok ((Shell.bind_of_ok hreply).trans (Shell.bind_of_ok rfl))
    exact ⟨_, orCancelled_of_ok (hstage.trans hhints)⟩
  | error failure =>
    cases failure with
    | malformed m =>
      rw [hread] at hreply
      have hhints : readHints j r reply u = (.ok (recordFailure r (replyRecord j m reply)), _) :=
        (Shell.tryCatch_of_error (Shell.bind_of_error hreply)).trans (Shell.bind_of_ok rfl)
      exact ⟨_, orCancelled_of_ok (hstage.trans hhints)⟩
    | overflow =>
      rw [hread] at hreply
      have hhints : readHints j r reply u = (.error .overflow, _) :=
        (Shell.tryCatch_of_error (Shell.bind_of_error hreply)).trans rfl
      exact ⟨_, orCancelled_of_error (hstage.trans hhints) rfl⟩

theorem modelRun_of_fault {r : Report} {client : ChatClient} {t u : Site} {e : Fault}
    (h : Shell.complete client (j.prompt r).messages (begun "llm" client.model t) = (.error e, u))
    (he : e.IsOrdinary) (hu : u.AtDesk d) :
    ∃ t', t'.AtDesk d ∧
      modelRun j r client t = (.ok (true, recordFailure r (callRecord j e)), t') := by
  have hrun := modelRun_eq_of_fault (j := j) h
  rw [he.isAbandoned_eq_false, if_neg Bool.false_ne_true] at hrun
  refine ⟨_, ?_, hrun⟩
  exact hu.congr rfl rfl rfl rfl

theorem modelRun_of_reply {r : Report} {client : ChatClient} {t u : Site} {reply : String}
    (h : Shell.complete client (j.prompt r).messages (begun "llm" client.model t) = (.ok reply, u))
    (hu : u.AtDesk d) :
    ∃ t', t'.AtDesk d ∧ modelRun j r client t =
      (match Reply.read reply with
        | .ok hints => .ok (true, { r with hints := some hints, modelUsed := true })
        | .error (.malformed m) => .ok (true, recordFailure r (replyRecord j m reply))
        | .error .overflow => .error .overflow, t') := by
  obtain ⟨book, hrun⟩ := modelRun_eq_of_reply (j := j) h
  refine ⟨_, ?_, hrun⟩
  exact hu.congr rfl rfl rfl rfl

/-! ## Records -/

/-- A report holds every record of an earlier one. -/
def Extends (r r' : Report) : Prop :=
  ∀ record ∈ r.errors.records, record ∈ r'.errors.records

theorem mem_records_recordFailure {r : Report} {record e : ErrorRecord} :
    record ∈ (recordFailure r e).errors.records ↔ record ∈ r.errors.records ∨ record = e :=
  ErrorLog.mem_add_iff r.errors e record

theorem extends_recordFailure (r : Report) (e : ErrorRecord) : Extends r (recordFailure r e) :=
  fun _ h => mem_records_recordFailure.2 (Or.inl h)

theorem extends_withPages (r : Report) (p : Page) : Extends r (withPages r p) := by
  rw [withPages]
  split
  · exact fun _ h => h
  · exact fun _ h => h

/-- The pages of a run drop no record. -/
theorem gives_pagesRun (j : Job) (r : Report) :
    Shell.Gives (fun p => Extends r p.2) (pagesRun j r) := by
  rw [pagesRun]
  refine .ite (.tryCatch (.map ?_) fun e => .ite ?_ (.throw e)) (.pure fun _ h => h)
  · refine .bind fun available => .ite (.bind fun _ => .pure fun _ h => h) (.bind fun _ => ?_)
    refine .tryCatch (.bind fun p => .bind fun _ => .pure (extends_withPages r p)) fun e => ?_
    exact .ite (.throw e) (.bind fun _ => .pure (extends_recordFailure r _))
  · exact .bind fun _ => .pure (extends_recordFailure r _)

/-! ## Runs -/

/-- What a run does with the report of the layers before the model. -/
def modelPart (j : Job) (r : Report) : Shell Report :=
  match j.modelInUse with
  | some client => if hasText r then return (← modelRun j r client).2 else return r
  | none => return r

theorem stages_of_pagesRun {s t : Site} {r : Report} (htext : textRun j s = (.ok (true, r), t)) :
    stages j s =
      (pagesRun j r >>= fun p => if p.1 then modelPart j p.2 else pure p.2) t := by
  refine (Shell.bind_of_ok htext).trans ?_
  rw [pagesRun]
  simp only [Bool.not_true, Bool.false_eq_true, if_false]
  split_ifs
  · rcases hpages : orCancelled j .ocr r (pagesStage j r) t with ⟨outcome, u⟩
    cases outcome with
    | error e => exact (Shell.bind_of_error hpages).trans (Shell.bind_of_error hpages).symm
    | ok p =>
      refine (Shell.bind_of_ok hpages).trans (Eq.trans ?_ (Shell.bind_of_ok hpages).symm)
      obtain ⟨goesOn, r'⟩ := p
      cases goesOn <;> rfl
  · rfl

/-- The layers of a run are those before the model, and the model. -/
theorem stages_eq (j : Job) (s : Site) :
    stages j s =
      (layersRun j >>= fun p => if p.1 then modelPart j p.2 else pure p.2) s := by
  rcases htext : textRun j s with ⟨outcome, t⟩
  cases outcome with
  | error e =>
    have hlayers : layersRun j s = (.error e, t) := Shell.bind_of_error htext
    exact (Shell.bind_of_error htext).trans (Shell.bind_of_error hlayers).symm
  | ok p =>
    obtain ⟨goesOn, r⟩ := p
    cases goesOn with
    | false =>
      have hlayers : layersRun j s = (.ok (false, r), t) := Shell.bind_of_ok htext
      rw [Shell.bind_of_ok hlayers]
      exact Shell.bind_of_ok htext
    | true =>
      have hlayers : layersRun j s = pagesRun j r t := Shell.bind_of_ok htext
      rw [stages_of_pagesRun htext]
      rcases hpages : pagesRun j r t with ⟨outcome', u⟩
      rw [hpages] at hlayers
      cases outcome' with
      | error e => exact (Shell.bind_of_error hpages).trans (Shell.bind_of_error hlayers).symm
      | ok p =>
        rw [Shell.bind_of_ok hlayers]
        exact Shell.bind_of_ok hpages

theorem stages_of_layersRun {s t : Site} {r : Report} {goesOn : Bool}
    (h : layersRun j s = (.ok (goesOn, r), t)) :
    stages j s = (if goesOn then modelPart j r else pure r) t := by
  rw [stages_eq, Shell.bind_of_ok h]

/-- Once the layers have given their report, only records are added. -/
theorem run_eq_of_stages_ok {s t : Site} {r : Report} (hdata : j.data.isEmpty = false)
    (h : stages j (started j s) = (.ok r, t)) :
    ∃ book, run j s = (.ok r, { t with book := book }) := by
  rw [run, if_neg (by simp [hdata])]
  exact ⟨_, (Shell.bind_of_ok rfl).trans ((Shell.bind_of_ok h).trans (Shell.bind_of_ok rfl))⟩

theorem run_of_stages_ok {s t : Site} {r : Report} (hdata : j.data.isEmpty = false)
    (h : stages j (started j s) = (.ok r, t)) :
    ∃ t', run j s = (.ok r, t') ∧ t'.desk = t.desk := by
  obtain ⟨book, hrun⟩ := run_eq_of_stages_ok hdata h
  exact ⟨_, hrun, rfl⟩

theorem run_of_stages_error {s t : Site} {e : Fault} (hdata : j.data.isEmpty = false)
    (h : stages j (started j s) = (.error e, t)) : run j s = (.error e, t) := by
  rw [run, if_neg (by simp [hdata])]
  exact (Shell.bind_of_ok rfl).trans (Shell.bind_of_error h)

theorem atDesk_started {s : Site} (hs : s.Attended) (j : Job) : (started j s).AtDesk s.desk :=
  Site.AtDesk.congr ⟨hs, rfl⟩ rfl rfl rfl rfl

/-- There is one way in which a run gets to its pages. -/
theorem ReachesPages.unique {s t t' : Site} {r r' : Report} {goesOn : Bool}
    (h : ReachesPages j s r t) (htext : textRun j (started j s) = (.ok (goesOn, r'), t')) :
    goesOn = true ∧ r' = r ∧ t' = t := by
  obtain ⟨hreport, hsite⟩ := Shell.ok_unique htext h.text
  obtain ⟨hgoes, hr⟩ := Prod.mk.inj hreport
  exact ⟨hgoes, hr, hsite⟩

/-- A fault of the text layer is in the report of that layer. -/
theorem mem_records_of_text {s t u : Site} {r : Report} {goesOn : Bool} {e : Fault}
    (hs : s.Attended) (htext : textRun j (started j s) = (.ok (goesOn, r), t))
    (h : TextLayer.extract j.data j.mime (some j.settings.textTimeout)
      (begun "text" j.mime (started j s)) = (.error e, u)) :
    faultRecord j .text e ∈ r.errors.records := by
  have hdesk := atDesk_begun (atDesk_started hs j) "text" j.mime
  have hordinary : e.IsOrdinary := (keeps_extract _ _ _ _ hdesk).2 e (by rw [h])
  obtain ⟨t', ht'⟩ := textRun_of_fault h hordinary
  obtain ⟨-, rfl⟩ := Prod.mk.inj (Shell.ok_unique htext ht').1
  exact mem_records_recordFailure.2 (Or.inr rfl)

/-- A fault of the pages is in the report of the pages. -/
theorem mem_records_of_pages {t u v w : Site} {r r' : Report} {goesOn : Bool} {e : Fault}
    {d : Desk} (ht : t.AtDesk d) (hrun : pagesRun j r t = (.ok (goesOn, r'), w))
    (hpages : j.hasPages = true) (havailable : pagesAvailable j t = (.ok true, u))
    (h : PageReading.read j.data j.mime j.settings.maxPages (begun "ocr" Tool.ocrEngine.name u)
      = (.error e, v)) : faultRecord j .ocr e ∈ r'.errors.records := by
  have hu : u.AtDesk d := by
    have hasked : (pagesAvailable j t).2.AtDesk d := Site.atDesk_ask _ ht
    rwa [havailable] at hasked
  have hdesk := atDesk_begun hu "ocr" Tool.ocrEngine.name
  have hordinary : e.IsOrdinary := (keeps_read _ _ _ _ hdesk).2 e (by rw [h])
  obtain ⟨t', ht'⟩ := pagesRun_of_fault (r := r) hpages havailable h hordinary
  obtain ⟨-, rfl⟩ := Prod.mk.inj (Shell.ok_unique hrun ht').1
  exact mem_records_recordFailure.2 (Or.inr rfl)

/-- The layers before the model, with the failures that a run meets in
them. -/
structure Earlier (j : Job) (s : Site) (goesOn : Bool) (r : Report) (t : Site) : Prop where
  stages : stages j (started j s) = (if goesOn then modelPart j r else pure r) t
  atDesk : t.AtDesk s.desk
  reaches : ∀ client r' t', ReachesModel j s client r' t' → goesOn = true ∧ r' = r ∧ t' = t
  reached : ∀ client, goesOn = true → j.modelInUse = some client → hasText r = true →
    ReachesModel j s client r t
  records : ∀ record, Meets j s record → record ∈ r.errors.records ∨
    ∃ client, ReachesModel j s client r t ∧ ModelFails j client r t record

/-- The layers before the model give a report. -/
theorem exists_earlier {s : Site} (hs : s.Attended) (hdata : j.data.isEmpty = false) :
    ∃ goesOn r t, Earlier j s goesOn r t := by
  obtain ⟨⟨b, r⟩, t, htext, ht⟩ := (keeps_textRun j).returns (atDesk_started hs j)
  cases b with
  | false =>
    have hnot : ∀ r' t', ¬ ReachesPages j s r' t' := by
      intro r' t' hreach
      exact Bool.noConfusion (hreach.unique htext).1
    refine ⟨false, r, t, ?_, ht, ?_, ?_, ?_⟩
    · exact stages_of_layersRun (Shell.bind_of_ok htext)
    · rintro client r' t' ⟨-, -, r'', t'', hreach, -⟩
      exact absurd hreach (hnot r'' t'')
    · intro client hfalse
      exact Bool.noConfusion hfalse
    · intro record hmeets
      cases hmeets with
      | text _ h => exact Or.inl (mem_records_of_text hs htext h)
      | pages hreach _ _ _ => exact absurd hreach (hnot _ _)
      | model hreach _ =>
        obtain ⟨r', t', hpages, -⟩ := hreach.pages
        exact absurd hpages (hnot r' t')
  | true =>
    obtain ⟨⟨b', r'⟩, t', hpages, ht'⟩ := (keeps_pagesRun j r).returns ht
    have hextends : Extends r r' := gives_pagesRun j r t (b', r') t' hpages
    have hunique : ∀ client q u, ReachesModel j s client q u → b' = true ∧ q = r' ∧ u = t' := by
      rintro client q u ⟨-, -, r'', t'', hreach, hrun⟩
      obtain ⟨-, rfl, rfl⟩ := hreach.unique htext
      obtain ⟨hreport, hsite⟩ := Shell.ok_unique hpages hrun
      obtain ⟨hgoes, hr⟩ := Prod.mk.inj hreport
      exact ⟨hgoes, hr.symm, hsite.symm⟩
    refine ⟨b', r', t', stages_of_layersRun ((Shell.bind_of_ok htext).trans hpages), ht', hunique,
      ?_, ?_⟩
    · rintro client rfl hclient htext'
      exact ⟨hclient, htext', r, t, ⟨hdata, htext⟩, hpages⟩
    · intro record hmeets
      cases hmeets with
      | text _ h => exact Or.inl (hextends _ (mem_records_of_text hs htext h))
      | pages hreach hhas havailable h =>
        obtain ⟨-, rfl, rfl⟩ := hreach.unique htext
        exact Or.inl (mem_records_of_pages ht hpages hhas havailable h)
      | model hreach hfails =>
        obtain ⟨-, rfl, rfl⟩ := hunique _ _ _ hreach
        exact Or.inr ⟨_, hreach, hfails⟩

/-! ## Outcome -/

/-- The model was asked, and its reply holds a number too large to be
rounded. -/
def Overflows (s t : Site) : Prop :=
  t.desk.requests ≠ s.desk.requests ∧
    ∃ reply, s.desk.reply? = some reply ∧ Reply.read reply = .error .overflow

/-- A run fails only for such a reply, and what else it meets is in its
report. -/
structure Accounted (j : Job) (s : Site) : Prop where
  error_iff : ∀ e, (run j s).1 = .error e ↔ e = .overflow ∧ Overflows s (run j s).2
  recorded : ∀ r, (run j s).1 = .ok r → ∀ record, Meets j s record → record ∈ r.errors.records

theorem not_overflows_of_desk_eq {s t : Site} (h : t.desk = s.desk) : ¬ Overflows s t :=
  fun hover => hover.1 (by rw [h])

/-- A run that gives a report with every failure that it met. -/
theorem accounted_of_ok {s t : Site} {r : Report} (hrun : run j s = (.ok r, t))
    (hreply : ¬ Overflows s t) (hrecords : ∀ record, Meets j s record → record ∈ r.errors.records) :
    Accounted j s := by
  refine ⟨fun e => ?_, fun r' hr' => ?_⟩
  · rw [hrun]
    exact ⟨fun he => (by cases he), fun he => absurd he.2 hreply⟩
  · rw [hrun] at hr'
    obtain rfl : r = r' := Except.ok.inj hr'
    exact hrecords

/-- A run that does not get to its model gives the report of the layers
before it. -/
theorem accounted_of_not_reachesModel {s t : Site} {r : Report} (hdata : j.data.isEmpty = false)
    {goesOn : Bool} (h : Earlier j s goesOn r t) (hnot : ∀ client, ¬ ReachesModel j s client r t)
    (hstages : stages j (started j s) = (.ok r, t)) : Accounted j s := by
  obtain ⟨t', hrun, hdesk⟩ := run_of_stages_ok hdata hstages
  refine accounted_of_ok hrun (not_overflows_of_desk_eq (hdesk.trans h.atDesk.desk)) ?_
  intro record hmeets
  rcases h.records record hmeets with hmem | ⟨client, hreach, -⟩
  · exact hmem
  · exact absurd hreach (hnot client)

theorem stages_of_reachesModel {s t : Site} {r : Report} {client : ChatClient} {goesOn : Bool}
    (h : Earlier j s goesOn r t) (hreach : ReachesModel j s client r t) :
    stages j (started j s) = (Prod.snd <$> modelRun j r client) t := by
  obtain ⟨rfl, -, -⟩ := h.reaches _ _ _ hreach
  rw [h.stages, if_pos rfl, modelPart, hreach.client, map_eq_pure_bind]
  exact congrFun (if_pos hreach.hasText) t

/-- A run that gets to its model gives the report of the model, which keeps
all records and adds its own. -/
theorem accounted_of_modelRun {s t u : Site} {r r' : Report} {client : ChatClient} {goesOn : Bool}
    (hdata : j.data.isEmpty = false) (h : Earlier j s goesOn r t)
    (hreach : ReachesModel j s client r t) (hrun : modelRun j r client t = (.ok (true, r'), u))
    (hreply : ∀ reply, s.desk.reply? = some reply → Reply.read reply ≠ .error .overflow)
    (hextends : Extends r r')
    (hfails : ∀ record, ModelFails j client r t record → record ∈ r'.errors.records) :
    Accounted j s := by
  have hstages := (stages_of_reachesModel h hreach).trans (Shell.map_of_ok hrun)
  obtain ⟨u', hrun', -⟩ := run_of_stages_ok hdata hstages
  refine accounted_of_ok hrun' ?_ ?_
  · rintro ⟨-, reply, hnext, hread⟩
    exact hreply reply hnext hread
  · intro record hmeets
    rcases h.records record hmeets with hmem | ⟨client', hreach', hmodel⟩
    · exact hextends record hmem
    · obtain rfl : client' = client := Option.some.inj (hreach'.client.symm.trans hreach.client)
      exact hfails record hmodel

section Calls

variable {s t u : Site} {r : Report} {client : ChatClient} {goesOn : Bool}

/-- The call of a run's model is answered by the next answer at the site of
the run. -/
theorem Earlier.answer (h : Earlier j s goesOn r t) {outcome : Except Fault String}
    (hcall : Shell.complete client (j.prompt r).messages (begun "llm" client.model t)
      = (outcome, u)) :
    (s.desk.complete client.model (j.prompt r).messages).1 = outcome ∧
      u.AtDesk (asked s.desk client (j.prompt r).messages) := by
  have hbegun := atDesk_begun h.atDesk "llm" client.model
  have hanswer := (complete_eq client (j.prompt r).messages (begun "llm" client.model t)).1
  have hasked := atDesk_complete hbegun client (j.prompt r).messages
  rw [hcall, hbegun.desk] at hanswer
  rw [hcall] at hasked
  exact ⟨hanswer.symm, hasked⟩

theorem modelFails_of_fault {e : Fault} {record : ErrorRecord}
    (hcall : Shell.complete client (j.prompt r).messages (begun "llm" client.model t)
      = (.error e, u)) (h : ModelFails j client r t record) : record = callRecord j e := by
  cases h with
  | call hcall' =>
    obtain ⟨rfl⟩ := Except.error.inj (congrArg Prod.fst (hcall.symm.trans hcall'))
    rfl
  | reply hcall' _ => cases hcall.symm.trans hcall'

theorem modelFails_of_reply {reply : String} {record : ErrorRecord}
    (hcall : Shell.complete client (j.prompt r).messages (begun "llm" client.model t)
      = (.ok reply, u)) (h : ModelFails j client r t record) :
    ∃ m, Reply.read reply = .error (.malformed m) ∧ record = replyRecord j m reply := by
  cases h with
  | call hcall' => cases hcall.symm.trans hcall'
  | reply hcall' hread =>
    obtain rfl := (Shell.ok_unique hcall hcall').1
    exact ⟨_, hread, rfl⟩

/-- A run whose call of the model fails. -/
theorem accounted_of_fault {e : Fault} (hdata : j.data.isEmpty = false)
    (h : Earlier j s goesOn r t) (hreach : ReachesModel j s client r t)
    (hcall : Shell.complete client (j.prompt r).messages (begun "llm" client.model t)
      = (.error e, u)) : Accounted j s := by
  obtain ⟨hanswer, hasked⟩ := h.answer hcall
  have hordinary := complete_error_isOrdinary h.atDesk hanswer
  obtain ⟨t', -, hrun⟩ := modelRun_of_fault hcall hordinary hasked
  refine accounted_of_modelRun hdata h hreach hrun ?_ (extends_recordFailure r _) ?_
  · intro reply hnext
    have hok : (s.desk.complete client.model (j.prompt r).messages).1 = .ok reply :=
      complete_ok_iff.2 hnext
    rw [hanswer] at hok
    cases hok
  · intro record hfails
    rw [modelFails_of_fault hcall hfails]
    exact mem_records_recordFailure.2 (Or.inr rfl)

/-- A run whose reply is read, or is no JSON object. -/
theorem accounted_of_reply {reply : String} (hdata : j.data.isEmpty = false)
    (h : Earlier j s goesOn r t) (hreach : ReachesModel j s client r t)
    (hcall : Shell.complete client (j.prompt r).messages (begun "llm" client.model t)
      = (.ok reply, u)) (hread : Reply.read reply ≠ .error .overflow) : Accounted j s := by
  obtain ⟨hanswer, hasked⟩ := h.answer hcall
  have hnext : s.desk.reply? = some reply := complete_ok_iff.1 hanswer
  have hreply : ∀ reply', s.desk.reply? = some reply' →
      Reply.read reply' ≠ .error .overflow := by
    intro reply' hnext'
    obtain rfl : reply = reply' := Option.some.inj (hnext.symm.trans hnext')
    exact hread
  obtain ⟨t', -, hrun⟩ := modelRun_of_reply hcall hasked
  have hfails : ∀ record, ModelFails j client r t record →
      ∃ m, Reply.read reply = .error (.malformed m) ∧ record = replyRecord j m reply :=
    fun record hmodel => modelFails_of_reply hcall hmodel
  cases houtcome : Reply.read reply with
  | ok hints =>
    rw [houtcome] at hrun
    refine accounted_of_modelRun hdata h hreach hrun hreply (fun _ hmem => hmem) ?_
    intro record hmodel
    obtain ⟨m, hm, -⟩ := hfails record hmodel
    rw [houtcome] at hm
    cases hm
  | error failure =>
    cases failure with
    | malformed m =>
      rw [houtcome] at hrun
      refine accounted_of_modelRun hdata h hreach hrun hreply (extends_recordFailure r _) ?_
      intro record hmodel
      obtain ⟨m', hm, rfl⟩ := hfails record hmodel
      rw [houtcome] at hm
      cases hm
      exact mem_records_recordFailure.2 (Or.inr rfl)
    | overflow => exact absurd houtcome hread

/-- A run that a reply breaks off. -/
theorem accounted_of_overflow {reply : String} (hdata : j.data.isEmpty = false)
    (h : Earlier j s goesOn r t) (hreach : ReachesModel j s client r t)
    (hcall : Shell.complete client (j.prompt r).messages (begun "llm" client.model t)
      = (.ok reply, u)) (hread : Reply.read reply = .error .overflow) : Accounted j s := by
  obtain ⟨hanswer, hasked⟩ := h.answer hcall
  obtain ⟨t', ht', hrun⟩ := modelRun_of_reply hcall hasked
  rw [hread] at hrun
  have hstages := (stages_of_reachesModel h hreach).trans (Shell.map_of_error hrun)
  have hfailed := run_of_stages_error hdata hstages
  have hover : Overflows s t' := by
    refine ⟨?_, reply, complete_ok_iff.1 hanswer, hread⟩
    rw [ht'.desk, requests_asked]
    simp
  refine ⟨fun e => ?_, fun r' hr' => ?_⟩
  · rw [hfailed]
    constructor
    · intro he
      exact ⟨(Except.error.inj he).symm, hover⟩
    · rintro ⟨rfl, -⟩
      rfl
  · rw [hfailed] at hr'
    cases hr'

theorem accounted_of_reachesModel (hdata : j.data.isEmpty = false) (h : Earlier j s goesOn r t)
    (hreach : ReachesModel j s client r t) : Accounted j s := by
  rcases hcall : Shell.complete client (j.prompt r).messages (begun "llm" client.model t)
    with ⟨outcome, u⟩
  cases outcome with
  | error e => exact accounted_of_fault hdata h hreach hcall
  | ok reply =>
    by_cases hread : Reply.read reply = .error .overflow
    · exact accounted_of_overflow hdata h hreach hcall hread
    · exact accounted_of_reply hdata h hreach hcall hread

end Calls

theorem accounted_of_nil {s : Site} (hdata : j.data = []) : Accounted j s := by
  have hrun : run j s = (.ok {}, s) := by
    rw [run_nil hdata]
    rfl
  refine accounted_of_ok hrun (not_overflows_of_desk_eq rfl) fun record hmeets => ?_
  have hempty : j.data.isEmpty = true := by rw [hdata]; rfl
  have hreaches : ∀ r t, ¬ ReachesPages j s r t := by
    intro r t hreach
    exact Bool.noConfusion (hempty.symm.trans hreach.data)
  cases hmeets with
  | text hne _ => exact Bool.noConfusion (hempty.symm.trans hne)
  | pages hreach _ _ _ => exact absurd hreach (hreaches _ _)
  | model hreach _ =>
    obtain ⟨r', t', hpages, -⟩ := hreach.pages
    exact absurd hpages (hreaches r' t')

/-- A run at an attended site fails exactly when the model was asked and its
reply holds a number too large to be rounded.  Otherwise it gives a report,
and the report holds a record of every failure that the run has met. -/
theorem run_error_iff (j : Job) {s : Site} (hs : s.Attended) :
    (∀ e, (run j s).1 = .error e ↔ e = .overflow ∧ Overflows s (run j s).2) ∧
      ∀ r, (run j s).1 = .ok r → ∀ record, Meets j s record → record ∈ r.errors.records := by
  have haccounted : Accounted j s := by
    cases hdata : j.data.isEmpty with
    | true => exact accounted_of_nil (List.isEmpty_iff.1 hdata)
    | false =>
      obtain ⟨goesOn, r, t, h⟩ := exists_earlier hs hdata
      by_cases hreach : ∃ client, ReachesModel j s client r t
      · obtain ⟨client, hreach⟩ := hreach
        exact accounted_of_reachesModel hdata h hreach
      · have hnot : ∀ client, ¬ ReachesModel j s client r t :=
          fun client hclient => hreach ⟨client, hclient⟩
        refine accounted_of_not_reachesModel hdata h hnot ?_
        rw [h.stages]
        cases hgoes : goesOn with
        | false => rfl
        | true =>
          rw [if_pos rfl, modelPart]
          cases hclient : j.modelInUse with
          | none => rfl
          | some client =>
            refine congrFun (if_neg fun htext => ?_) t
            exact hnot client (h.reached client hgoes hclient htext)
  exact ⟨haccounted.error_iff, haccounted.recorded⟩

/-- A note whose model is to be asked. -/
def note : Job where
  data := [120]
  filename := "a.txt"
  mime := "text/plain"
  settings := { model := "m" }
  client := some { model := "m" }

/-- A reply that names an amount of more digits than can be rounded. -/
def lavishReply : String := "\x7b\"total_cents\": 10000000000000000000000000000000\x7d"

/-- A site whose model gives that reply. -/
def lavish : Site where
  desk := { replies := [{ answer := .whole (some lavishReply) }] }

theorem attended_lavish : lavish.Attended := by
  refine ⟨rfl, ?_, ?_, ?_⟩
  · intro p hp
    cases hp
  · intro p hp
    cases hp
  · intro r hr
    obtain rfl := List.mem_singleton.1 hr
    exact Answer.noConfusion

theorem run_error_iff_lavish :
    (∀ e, (run note lavish).1 = .error e ↔
      e = .overflow ∧ Overflows lavish (run note lavish).2) ∧
      ∀ r, (run note lavish).1 = .ok r →
        ∀ record, Meets note lavish record → record ∈ r.errors.records :=
  run_error_iff note attended_lavish

/-- Such a reply breaks a run off: not every run at an attended site gives a
report. -/
theorem not_run_total : ¬ ∀ (j : Job) (s : Site), s.Attended → ∃ r, (run j s).1 = .ok r := by
  intro h
  obtain ⟨r, hr⟩ := h note lavish attended_lavish
  have hfails : (match (run note lavish).1 with
      | .ok _ => true
      | .error _ => false) = false := by decide +kernel
  rw [hr] at hfails
  cases hfails

end Batch
end Intake
