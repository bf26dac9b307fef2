import Intake.Proofs.Batch.Outcome

/-!
# Batch runs with a reply

What a batch run comes to that gets to its model and is given a whole reply.
Nothing is asked of the site.

There are three groups.

* Reports.  `Batch.Unasked` is a report in which nothing has come of a model.
* Layers.  The layers before the model leave such a report.
* The reply.  `Batch.replied` is what a reply makes of a report, and
  `run_of_reply` says that the run gives it.
-/

namespace Intake

namespace ErrorLog

theorem has_iff {log : ErrorLog} {c : Category} :
    log.has c = true ↔ ∃ r ∈ log.records, r.category = c := by
  simp [has]

theorem has_add (log : ErrorLog) (r : ErrorRecord) (c : Category) :
    (log.add r).has c = true ↔ log.has c = true ∨ r.category = c := by
  rw [has_iff, has_iff]
  constructor
  · rintro ⟨x, hx, hc⟩
    rcases (mem_add_iff log r x).1 hx with hx | rfl
    · exact Or.inl ⟨x, hx, hc⟩
    · exact Or.inr hc
  · rintro (⟨x, hx, hc⟩ | hc)
    · exact ⟨x, (mem_add_iff log r x).2 (Or.inl hx), hc⟩
    · exact ⟨r, (mem_add_iff log r r).2 (Or.inr rfl), hc⟩

end ErrorLog

namespace Batch

variable {j : Job} {r : Report}

/-! ## Reports -/

/-- Nothing has come of a model so far. -/
structure Unasked (r : Report) : Prop where
  hints : r.hints = none
  replies : r.errors.has .llmParse = false

theorem unasked_default : Unasked {} := ⟨rfl, rfl⟩

theorem Unasked.recordFailure (h : Unasked r) {e : ErrorRecord} (he : e.category ≠ .llmParse) :
    Unasked (recordFailure r e) := by
  refine ⟨h.hints, ?_⟩
  rw [← Bool.not_eq_true, Batch.recordFailure, ErrorLog.has_add, h.replies]
  simp [he]

theorem Unasked.withPages (h : Unasked r) (p : Page) : Unasked (withPages r p) := by
  rw [Batch.withPages]
  split
  · exact h
  · exact ⟨h.hints, h.replies⟩

/-! ## Layers -/

theorem category_ocr_ne (message : String) (filename : Option String) (cause : Option Fault) :
    (ErrorRecord.ocr message filename cause).category ≠ .llmParse := by
  rw [ErrorRecord.ocr]
  split
  · exact Category.noConfusion
  · exact Category.noConfusion

theorem gives_orCancelled_unasked {stage : LayerKind} {layer : Shell Report} (hr : Unasked r)
    (h : Shell.Gives Unasked layer) :
    Shell.Gives (fun p => Unasked p.2) (orCancelled j stage r layer) := by
  have hgoes : Shell.Gives (fun p : Bool × Report => Unasked p.2) ((true, ·) <$> layer) := .map h
  refine hgoes.tryCatch fun e => .ite (.bind fun _ => .pure ?_) (.throw e)
  exact hr.recordFailure Category.noConfusion

theorem gives_textRun_unasked (j : Job) :
    Shell.Gives (fun p => Unasked p.2) (textRun j) := by
  refine gives_orCancelled_unasked unasked_default (.bind fun _ => .tryCatch ?_ fun e =>
    .ite (.throw e) ?_)
  · exact .bind fun text => .bind fun _ => .pure ⟨rfl, rfl⟩
  · exact .bind fun _ => .pure (unasked_default.recordFailure Category.noConfusion)

theorem gives_pagesRun_unasked (hr : Unasked r) :
    Shell.Gives (fun p => Unasked p.2) (pagesRun j r) := by
  rw [pagesRun]
  refine .ite (gives_orCancelled_unasked hr (.bind fun available => .ite ?_ ?_)) (.pure hr)
  · exact .bind fun _ => .pure hr
  · refine .bind fun _ => .tryCatch ?_ fun e => .ite (.throw e) ?_
    · exact .bind fun p => .bind fun _ => .pure (hr.withPages p)
    · exact .bind fun _ => .pure (hr.recordFailure (category_ocr_ne _ _ _))

variable {s t : Site} {client : ChatClient}

theorem ReachesModel.unasked (h : ReachesModel j s client r t) : Unasked r := by
  obtain ⟨r', t', hpages, hrun⟩ := h.pages
  have htext : Unasked r' := gives_textRun_unasked j _ _ _ hpages.text
  exact gives_pagesRun_unasked htext _ _ _ hrun

/-- The layers before the model, as the one part of a run that they are. -/
theorem ReachesModel.layersRun (h : ReachesModel j s client r t) :
    layersRun j (started j s) = (.ok (true, r), t) := by
  obtain ⟨r', t', hpages, hrun⟩ := h.pages
  exact (Shell.bind_of_ok hpages.text).trans hrun

/-! ## The reply -/

/-- What a reply makes of a report. -/
def replied (j : Job) (r : Report) (reply : String) : Except Fault Report :=
  match Reply.read reply with
  | .ok hints => .ok { r with hints := some hints, modelUsed := true }
  | .error (.malformed m) => .ok (recordFailure r (replyRecord j m reply))
  | .error .overflow => .error .overflow

theorem readHints_eq (j : Job) (r : Report) (reply : String) (u : Site) :
    (readHints j r reply u).1 = replied j r reply := by
  have hreply := readReply_eq reply u
  rw [replied]
  cases hread : Reply.read reply with
  | ok hints =>
    rw [hread] at hreply
    exact congrArg Prod.fst (Shell.tryCatch_of_ok
      ((Shell.bind_of_ok hreply).trans (Shell.bind_of_ok rfl)))
  | error failure =>
    cases failure with
    | malformed m =>
      rw [hread] at hreply
      exact congrArg Prod.fst ((Shell.tryCatch_of_error (Shell.bind_of_error hreply)).trans
        (Shell.bind_of_ok rfl))
    | overflow =>
      rw [hread] at hreply
      exact congrArg Prod.fst ((Shell.tryCatch_of_error (Shell.bind_of_error hreply)).trans rfl)

/-- A layer that fails in no cancellation gives what it gives on its own. -/
theorem orCancelled_eq {stage : LayerKind} {layer : Shell Report} {u : Site}
    {outcome : Except Fault Report} (h : (layer u).1 = outcome)
    (he : ∀ e, outcome = .error e → e.isCancelled = false) :
    (orCancelled j stage r layer u).1 = outcome.map (true, ·) := by
  rcases hlayer : layer u with ⟨outcome', v⟩
  rw [hlayer] at h
  subst h
  cases outcome' with
  | ok r' => rw [orCancelled_of_ok hlayer]; rfl
  | error e => rw [orCancelled_of_error hlayer (he e rfl)]; rfl

theorem not_isCancelled_of_replied {reply : String} {e : Fault}
    (h : replied j r reply = .error e) : e.isCancelled = false := by
  rw [replied] at h
  split at h
  · cases h
  · cases h
  · cases h
    rfl

theorem modelRun_of_answer {reply : String} (h : t.desk.reply? = some reply) :
    (modelRun j r client t).1 = (replied j r reply).map (true, ·) := by
  have hanswer : (Shell.complete client (j.prompt r).messages (begun "llm" client.model t)).1 =
      .ok reply := (complete_eq client _ _).1.trans (complete_ok_iff.2 h)
  rcases hcall : Shell.complete client (j.prompt r).messages (begun "llm" client.model t)
    with ⟨outcome, u⟩
  rw [hcall] at hanswer
  cases hanswer
  have hask : askModel j r client (begun "llm" client.model t) = (.ok (.ok reply), u) := by
    rw [askModel]
    exact Shell.tryCatch_of_ok (Shell.map_of_ok hcall)
  have hstage : modelStage j r client t = readHints j r reply u :=
    (Shell.bind_of_ok rfl).trans (Shell.bind_of_ok hask)
  refine orCancelled_eq ?_ fun e => not_isCancelled_of_replied
  rw [hstage, readHints_eq]

/-- A run that gets to its model gives what the reply makes of its report. -/
theorem run_of_reply (h : ReachesModel j s client r t) {reply : String}
    (hreply : t.desk.reply? = some reply) : (run j s).1 = replied j r reply := by
  obtain ⟨r', t', hreach, -⟩ := h.pages
  have hmodel : (modelRun j r client t).1 = (replied j r reply).map (true, ·) :=
    modelRun_of_answer hreply
  have hstages : stages j (started j s) = (Prod.snd <$> modelRun j r client) t := by
    rw [stages_of_layersRun h.layersRun, if_pos rfl, modelPart, h.client, map_eq_pure_bind]
    exact congrFun (if_pos h.hasText) t
  rcases hrun : modelRun j r client t with ⟨outcome, u⟩
  rw [hrun] at hmodel
  cases hreplied : replied j r reply with
  | ok r'' =>
    rw [hreplied] at hmodel
    cases hmodel
    obtain ⟨u', hrun', -⟩ := run_of_stages_ok hreach.data (hstages.trans (Shell.map_of_ok hrun))
    rw [hrun']
  | error e =>
    rw [hreplied] at hmodel
    cases hmodel
    rw [run_of_stages_error hreach.data (hstages.trans (Shell.map_of_error hrun))]

end Batch
end Intake
