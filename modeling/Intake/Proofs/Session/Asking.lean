import Intake.Proofs.Session.Briefing
import Intake.Proofs.Session.Lifecycle

/-!
# Questions to a model

A model is asked when a document without pages to read is opened, when the
pages were read, and when a session is complete and its model is asked again.
Each time it is told what the session knows of the document.

There are three groups.

* Models.  `Workbench.AsksLike` says that two workbenches ask the same model and
  tell it of the same names; `asksLike_move` says that no move changes any of it.
* Reruns.  `bench_of_rerun` says what a rerun is, by a key or by a call.
* Questions.  `Workbench.Questions` says that the model is asked for a session;
  `exists_questions` says that its model has said nothing until then.
-/

namespace Intake

/-! ## Models -/

namespace Workbench

variable {u v w w' : Workbench}

/-- Both workbenches ask the same model, and tell it of the same names. -/
structure AsksLike (w w' : Workbench) : Prop where
  client : w'.client = w.client
  settings : w'.settings = w.settings
  names : w'.knownEntities.1 = w.knownEntities.1

theorem AsksLike.rfl : w.AsksLike w := ⟨by rfl, by rfl, by rfl⟩

theorem AsksLike.trans (h : u.AsksLike v) (h' : v.AsksLike w) : u.AsksLike w :=
  ⟨h'.client.trans h.client, h'.settings.trans h.settings, h'.names.trans h.names⟩

theorem AsksLike.clientInUse (h : w.AsksLike w') : w'.clientInUse = w.clientInUse := by
  rw [Workbench.clientInUse, Workbench.clientInUse, h.settings, h.client]

theorem AsksLike.modelLabel (h : w.AsksLike w') : w'.modelLabel = w.modelLabel := by
  rw [Workbench.modelLabel, Workbench.modelLabel, h.clientInUse, h.settings]

/-- The names depend on nothing but the store. -/
theorem asksLike_of_store (hclient : w'.client = w.client) (hsettings : w'.settings = w.settings)
    (hstore : w'.store = w.store) : w.AsksLike w' := by
  refine ⟨hclient, hsettings, ?_⟩
  rw [names_knownEntities, names_knownEntities, hstore]

theorem Touches.asksLike (h : w.Touches w') : w.AsksLike w' := by
  obtain ⟨_, _, hw'⟩ := h
  subst hw'
  exact asksLike_of_store (by rfl) (by rfl) (by rfl)

theorem Prepares.asksLike (h : w.Prepares w') : w.AsksLike w' := by
  obtain ⟨_, _, rfl⟩ := h
  exact asksLike_of_store rfl rfl rfl

theorem asksLike_cancel (w : Workbench) : w.AsksLike w.cancel := by
  obtain ⟨hstore, hclient, hsettings, -⟩ := cancel_frames w
  exact asksLike_of_store hclient hsettings hstore

theorem asksLike_begun (w : Workbench) : w.AsksLike w.begun :=
  (asksLike_cancel w).trans (asksLike_of_store rfl rfl rfl)

theorem asksLike_accept (w : Workbench) : w.AsksLike w.accept.1 := by
  have hkept : w.accept.1.client = w.client ∧ w.accept.1.settings = w.settings := by
    rw [accept]
    split
    · exact ⟨rfl, rfl⟩
    · split
      · exact ⟨rfl, rfl⟩
      · split
        · exact ⟨rfl, rfl⟩
        · split
          · exact ⟨rfl, rfl⟩
          · dsimp only
            split
            · exact ⟨rfl, rfl⟩
            · exact ⟨rfl, rfl⟩
  exact ⟨hkept.1, hkept.2, names_accept w⟩

theorem asksLike_handle (w : Workbench) (now : Float) (d : Delivery) :
    w.AsksLike (w.handle now d).bench := by
  by_cases haccept : d = .key .accept
  · rw [haccept, ← accept_eq_handle]
    exact asksLike_accept w
  · by_cases hescape : d = .key .escape
    · rw [hescape, ← cancel_eq_handle]
      exact asksLike_cancel w
    · rcases handle_cases w now d with ⟨s, -, htake⟩ | hdrop
      · rw [htake]
        exact (touches_take w now s haccept hescape).asksLike
      · rw [hdrop]
        cases d with
        | replyOpened owner stream => exact asksLike_of_store rfl rfl rfl
        | _ => exact AsksLike.rfl

theorem asksLike_open (w : Workbench) (now : Float) (document : Int) (filename : String)
    (data : Text.Utf8.Bytes) (mime text : String) :
    w.AsksLike (w.open now document filename data mime text).bench := by
  rw [Workbench.open]
  split
  · exact (asksLike_begun w).trans (asksLike_of_store rfl rfl rfl)
  · exact (asksLike_begun w).trans (touches_startModel w.begun now _ _).asksLike
  · exact (asksLike_cancel w).trans (asksLike_of_store rfl rfl rfl)

end Workbench

namespace Office

variable {o o' : Office} {h : List Entry} {e : Entry}

/-- No move changes which model is asked, or the names it is told of. -/
theorem asksLike_move (hmove : Move o e o') : o.bench.AsksLike o'.bench := by
  cases hmove with
  | opens s hwork hbench =>
    obtain ⟨w, hprepares, hturn⟩ := Workshop.opens_cases hwork s
    rw [hbench] at hprepares
    rcases hturn with ⟨f, hturn⟩ | ⟨now, document, filename, data, mime, text, hturn⟩
    · rw [hturn]
      exact hprepares.asksLike
    · rw [hturn]
      exact hprepares.asksLike.trans
        (Workbench.asksLike_open w now document filename data mime text)
  | reruns now => exact (Workbench.touches_rerun o.bench now).asksLike
  | cancels => exact Workbench.asksLike_cancel o.bench
  | accepts => exact Workbench.asksLike_accept o.bench
  | presses k => exact .rfl
  | @carries i task s htask hbench =>
    rcases bench_carry hbench i task with hcarry | ⟨owner, stream, hcarry⟩
    · rw [hcarry]
      exact .rfl
    · rw [hcarry]
      exact (Workbench.touches_onSession _ _).asksLike
  | @handles i d now hd => exact Workbench.asksLike_handle o.bench now d

theorem asksLike_of_chronicle (hrun : Chronicle o h o') : o.bench.AsksLike o'.bench := by
  induction hrun with
  | nil => exact .rfl
  | snoc _ hmove ih => exact ih.trans (asksLike_move hmove)

end Office

/-! ## Reruns -/

namespace Office

variable {o o' : Office} {e : Entry}

/-- A rerun, by a key or by a call, is one turn at the workbench. -/
theorem bench_of_rerun (hmove : Move o e o') (hrerun : e.what.IsRerun) : ∃ now,
    o'.bench = (o.bench.rerun now).bench ∧ e.command = (o.bench.rerun now).command? := by
  rcases hrerun with hwhat | hwhat
  · cases hmove with
    | reruns now => exact ⟨now, rfl, rfl⟩
    | _ => cases hwhat
  · cases hmove with
    | handles now hd =>
      cases hwhat
      refine ⟨now, ?_⟩
      rw [Workbench.rerun_eq_handle]
      exact ⟨rfl, rfl⟩
    | _ => cases hwhat

end Office

/-! ## Questions -/

/-- The model of a session has said nothing. -/
structure Session.Unheard (s : Session) : Prop where
  llm : s.llm = {}
  received : s.received = []

namespace Workbench

variable {w w' : Workbench} {s : Session} {now : Float} {n : Nat} {client : ChatClient}
  {messages : List Message}

/-- The model is asked for a session, and told what the session knows. -/
structure Questions (w w' : Workbench) (s : Session) (client : ChatClient)
    (messages : List Message) : Prop where
  session : ∃ now, w'.session = some (s.modelStarted now w.modelLabel)
  client : w.clientInUse = some client
  messages : messages = (Prompt.build w.knownEntities.1 s.source).messages

theorem Questions.of_asksLike {u : Workbench} (h : w.Questions w' s client messages)
    (hw : u.AsksLike w) : u.Questions w' s client messages := by
  obtain ⟨now, hsession⟩ := h.session
  refine ⟨⟨now, ?_⟩, hw.clientInUse.symm.trans h.client, ?_⟩
  · rw [← hw.modelLabel]
    exact hsession
  · rw [← hw.names]
    exact h.messages

/-- A turn that starts the model's step, at a workbench that asks the same
model. -/
theorem questions_startModel (hw : w.AsksLike w') (hclient : w.clientInUse = some client)
    (now : Float) (s : Session) {messages : List Message}
    (hcommand : (w'.startModel now client s).command? = some (.openReply n client messages)) :
    s.number = n ∧ w.Questions (w'.startModel now client s).bench s client messages := by
  cases hcommand
  refine ⟨rfl, ⟨now, ?_⟩, hclient, ?_⟩
  · rw [← hw.modelLabel]
    rfl
  · rw [← hw.names]
    rfl

/-- The turn asks for the session, or for one whose model has said as little. -/
def AsksAfter (w : Workbench) (t : Turn) (s : Session) (n : Nat) (client : ChatClient)
    (messages : List Message) : Prop :=
  ∃ s₀, s₀.number = n ∧ w.Questions t.bench s₀ client messages ∧ s₀.llm = s.llm ∧
    s₀.received = s.received

theorem asksAfter_afterPages
    (hcommand : (w.afterPages now s).command? = some (.openReply n client messages)) :
    w.AsksAfter (w.afterPages now s) s n client messages := by
  rcases afterPages_cases w now s with ⟨client', hclient, -, hturn⟩ | ⟨-, hturn⟩
  · rw [hturn] at hcommand ⊢
    obtain rfl : client' = client := by
      cases hcommand
      rfl
    obtain ⟨hnumber, hquestions⟩ := questions_startModel AsksLike.rfl hclient now s hcommand
    exact ⟨s, hnumber, hquestions, rfl, rfl⟩
  · rw [hturn] at hcommand
    cases hcommand

/-- The pages' step leaves the model's step as it is. -/
theorem asksAfter_onProgress {p : Progress}
    (hcommand : (w.onProgress now s p).command? = some (.openReply n client messages)) :
    w.AsksAfter (w.onProgress now s p) s n client messages := by
  rw [onProgress] at hcommand ⊢
  cases hfault : p.fault with
  | some f =>
    rw [hfault] at hcommand
    exact asksAfter_afterPages (s := s.pagesFailed now f) hcommand
  | none =>
    rw [hfault] at hcommand
    cases hdone : p.done with
    | true =>
      rw [hdone] at hcommand
      exact asksAfter_afterPages (s := s.pagesRead now ⟨p.text, p.table⟩) hcommand
    | false =>
      rw [hdone] at hcommand
      cases hcommand

theorem rerun_of_canRerun (hs : w.session = some s) (hclient : w.clientInUse = some client)
    (hrerun : canRerun s = true) (now : Float) :
    w.rerun now = w.startModel now client s.modelReset := by
  rw [rerun, hs, hclient]
  exact if_pos hrerun

/-- A rerun asks the model of a complete session with the cursor on that step,
and does nothing otherwise. -/
theorem rerun_eq (hs : w.session = some s) (now : Float) :
    (∃ client, w.clientInUse = some client ∧ canRerun s = true ∧
      w.rerun now = w.startModel now client s.modelReset) ∨ w.rerun now = ⟨w, .ok none⟩ := by
  cases hclient : w.clientInUse with
  | none =>
    rw [rerun, hs, hclient]
    exact Or.inr rfl
  | some client =>
    cases hrerun : canRerun s with
    | true => exact Or.inl ⟨client, rfl, rfl, rerun_of_canRerun hs hclient hrerun now⟩
    | false =>
      rw [rerun, hs, hclient]
      exact Or.inr (if_neg (by rw [hrerun]; exact Bool.false_ne_true))

theorem asksAfter_rerun (hs : w.session = some s)
    (hcommand : (w.rerun now).command? = some (.openReply n client messages)) :
    w.AsksAfter (w.rerun now) s.modelReset n client messages := by
  rcases rerun_eq hs now with ⟨client', hclient, -, hturn⟩ | hturn
  · rw [hturn] at hcommand ⊢
    obtain rfl : client' = client := by
      cases hcommand
      rfl
    obtain ⟨hnumber, hquestions⟩ := questions_startModel AsksLike.rfl hclient now _ hcommand
    exact ⟨s.modelReset, hnumber, hquestions, rfl, rfl⟩
  · rw [hturn] at hcommand
    cases hcommand

/-- A document without pages to read is opened. -/
theorem asks_of_open {document : Int} {filename : String} {data : Text.Utf8.Bytes}
    {mime text : String} (hcommand : (w.open now document filename data mime text).command? =
      some (.openReply n client messages)) :
    ∃ s₀, s₀.number = n ∧ s₀.Unheard ∧
      w.Questions (w.open now document filename data mime text).bench s₀ client messages := by
  cases hreads : w.canReadPages mime with
  | true =>
    rw [open_of_reads hreads] at hcommand
    cases hcommand
  | false =>
    cases hclient : w.clientInUse with
    | none =>
      rw [open_of_idle hreads hclient] at hcommand
      cases hcommand
    | some client' =>
      rw [open_of_asks hreads hclient] at hcommand ⊢
      obtain rfl : client' = client := by
        cases hcommand
        rfl
      obtain ⟨hnumber, hquestions⟩ := questions_startModel (asksLike_begun w) hclient now _ hcommand
      exact ⟨_, hnumber, ⟨rfl, rfl⟩, hquestions⟩

end Workbench

namespace Office

variable {o o' : Office} {h : List Entry} {e : Entry} {n : Nat} {client : ChatClient}
  {messages : List Message}

/-- The session for which the model is asked stands at its model's step. -/
theorem stands_of_asks (hrecorded : o.Recorded h) (hmove : Move o e o') (hasks : e.asks n) :
    ∃ s, o'.bench.session = some s ∧ s.number = n ∧ s.Stands (some .llm) := by
  obtain ⟨c, hc, hcasks⟩ := (Option.any_eq_true _ _).1 hasks
  obtain ⟨hrecorded', hfollows⟩ := recorded_move hrecorded hmove
  obtain ⟨s, hs, hnumber⟩ := hfollows.attended c hc
  rw [Command.owner_of_asks hcasks] at hnumber
  obtain ⟨k?, hstands, hworks⟩ := (hrecorded'.sound.session s hs).stands
  have hlayer : some c.layer = k? :=
    hworks.layer _ (mem_items_of_command hmove hc)
      (congrArg some ((Command.owner_of_asks hcasks).trans hnumber.symm))
  cases c with
  | openReply owner client messages =>
    subst hlayer
    exact ⟨s, hs, hnumber, hstands⟩
  | _ => cases hcasks

theorem asks_of_command (hcommand : e.command = some (.openReply n client messages)) :
    e.asks n := by
  rw [Entry.asks, hcommand]
  exact beq_self_eq_true n

/-- What asks the model for a session that was open is a rerun, or what was
heard from its pages. -/
theorem rerun_or_progress_of_asks (hrecorded : o.Recorded h) (hmove : Move o e o') {s s' : Session}
    (hs' : o'.bench.session = some s') (hchange : s.Change e s') (hasks : e.asks s.number) :
    e.what.IsRerun ∨ s.llm.status = .pending ∧ ∃ p, e.what = .handles (.progress s.number p) := by
  by_cases hocr : s.ocr.status = .running
  · rcases hchange.keeps_or_reads with hkeeps | hreads
    · obtain ⟨s'', hs'', -, hstands⟩ := stands_of_asks hrecorded hmove hasks
      obtain rfl : s' = s'' := Option.some.inj (hs'.symm.trans hs'')
      refine absurd ?_ (ocr_ne_running hstands)
      rw [hkeeps.ocr]
      exact hocr
    · exact Or.inr ⟨hreads.stands.llm, hreads.heard⟩
  · exact Or.inl (hchange.isRerun_of_asks hocr hasks)

/-- Whenever the model is asked, it is asked for a session of whose model
nothing was heard, or for one whose model's step has waited until then. -/
theorem exists_questions (hrecorded : o.Recorded h) (hmove : Move o e o')
    (hcommand : e.command = some (.openReply n client messages)) :
    ∃ s₀, s₀.number = n ∧ o.bench.Questions o'.bench s₀ client messages ∧
      (s₀.Unheard ∨ ∃ s, o.bench.session = some s ∧ s.number = n ∧ s.llm.status = .pending ∧
        s₀.llm = s.llm ∧ s₀.received = s.received) := by
  by_cases hwhat : e.what = .opens
  · cases hmove with
    | opens s hwork hbench =>
      obtain ⟨w, hprepares, hturn⟩ := Workshop.opens_cases hwork s
      rw [hbench] at hprepares
      rcases hturn with ⟨f, hturn⟩ | ⟨now, document, filename, data, mime, text, hturn⟩
      · rw [hturn] at hcommand
        cases hcommand
      · rw [hturn] at hcommand ⊢
        obtain ⟨s₀, hnumber, hunheard, hquestions⟩ := Workbench.asks_of_open hcommand
        exact ⟨s₀, hnumber, hquestions.of_asksLike hprepares.asksLike, Or.inl hunheard⟩
    | _ => cases hwhat
  · -- The session was open before, so that the question is a rerun or follows its pages.
    have hasks := asks_of_command hcommand
    obtain ⟨s', hs', hnumber, -⟩ := stands_of_asks hrecorded hmove hasks
    obtain ⟨s, hs, hchange⟩ := change_of_move_ne hrecorded.sound hmove hwhat hs'
    obtain rfl : s.number = n := hchange.number.symm.trans hnumber
    rcases rerun_or_progress_of_asks hrecorded hmove hs' hchange hasks with
      hrerun | ⟨hpending, p, hheard⟩
    · obtain ⟨now, hbench, hturn⟩ := bench_of_rerun hmove hrerun
      obtain ⟨s₀, hn, hquestions, hllm, hreceived⟩ :=
        Workbench.asksAfter_rerun hs (hturn.symm.trans hcommand)
      rw [← hbench] at hquestions
      exact ⟨s₀, hn, hquestions, Or.inl ⟨hllm, hreceived⟩⟩
    · cases hmove with
      | @handles i d now hd =>
        cases hheard
        have hturn : o.bench.handle now (.progress s.number p) = o.bench.onProgress now s p :=
          Workbench.handle_of_owner hs rfl now
        rw [hturn] at hcommand ⊢
        obtain ⟨s₀, hn, hquestions, hllm, hreceived⟩ := Workbench.asksAfter_onProgress hcommand
        exact ⟨s₀, hn, hquestions, Or.inr ⟨s, hs, rfl, hpending, hllm, hreceived⟩⟩
      | _ => cases hheard

end Office
end Intake
