import Intake.Proofs.Batch.Outcome
import Intake.Proofs.Program.Courses

/-!
# What batch runs ask

A run asks its model once when it gets that far, and not at all otherwise.

There are three groups.

* Computations.  `Shell.Asks` says what a computation asks, with a rule for
  each way of putting computations together.
* Layers.  Nothing is asked before the model.
* Runs.  `asks_of_run` is the result.
-/

namespace Intake

/-! ## Computations -/

namespace Shell

variable {α β : Type} {asked : List ChatRequest}

/-- A computation asks a model this, whatever comes of it. -/
def Asks (asked : List ChatRequest) (x : Shell α) : Prop :=
  ∀ s, (x s).2.desk.requests = s.desk.requests ++ asked

theorem asks_of_desk {x : Shell α} (h : ∀ s, (x s).2.desk = s.desk) : Asks [] x := by
  intro s
  rw [h, List.append_nil]

theorem asks_pure (a : α) : Asks [] (pure a : Shell α) := asks_of_desk fun _ => rfl

theorem asks_throw (e : Fault) : Asks [] (throw e : Shell α) := asks_of_desk fun _ => rfl

theorem Asks.bind {x : Shell α} {f : α → Shell β} (hx : Asks asked x) (hf : ∀ a, Asks [] (f a)) :
    Asks asked (x >>= f) := by
  intro s
  have hasked := hx s
  rcases hrun : x s with ⟨outcome, t⟩
  rw [hrun] at hasked
  cases outcome with
  | ok a => rw [bind_of_ok hrun, hf a t, hasked, List.append_nil]
  | error e => rw [bind_of_error hrun, hasked]

theorem Asks.tryCatch {x : Shell α} {handle : Fault → Shell α} (hx : Asks asked x)
    (hhandle : ∀ e, Asks [] (handle e)) : Asks asked (tryCatch x handle) := by
  intro s
  have hasked := hx s
  rcases hrun : x s with ⟨outcome, t⟩
  rw [hrun] at hasked
  cases outcome with
  | ok a => rw [tryCatch_of_ok hrun, hasked]
  | error e => rw [tryCatch_of_error hrun, hhandle e t, hasked, List.append_nil]

theorem Asks.map {x : Shell α} (hx : Asks asked x) (f : α → β) : Asks asked (f <$> x) := by
  rw [map_eq_pure_bind]
  exact hx.bind fun a => asks_pure (f a)

theorem Asks.ite {c : Prop} [Decidable c] {x y : Shell α} (hx : Asks asked x) (hy : Asks asked y) :
    Asks asked (if c then x else y) := by
  split
  · exact hx
  · exact hy

/-- What is reported first plays no part. -/
theorem Asks.reported {y : Shell α} (hy : Asks asked y) (f : Logbook → Logbook) :
    Asks asked (report f >>= fun _ => y) := by
  intro s
  have hreport : report f s = (.ok (), (report f s).2) := rfl
  rw [bind_of_ok hreport]
  exact hy _

theorem asks_complete (client : ChatClient) (messages : List Message) :
    Asks [.complete client.model messages] (complete client messages) := by
  intro s
  rw [(Batch.complete_eq client messages s).2.2.2.2, Batch.requests_asked]

theorem asks_launch (r : Request) : Asks [] (launch r) := by
  refine asks_of_desk fun s => ?_
  rw [launch]
  dsimp only
  split
  · rfl
  · rfl

theorem asks_await (r : Request) (script : Script) : Asks [] (await r script) := by
  refine asks_of_desk fun s => ?_
  rw [await_eq]
  cases courseOf s r script with
  | ended => rfl
  | cancelled => rfl
  | timedOut => rfl
  | waiting => rfl

end Shell

/-- No layer that runs programs asks a model. -/
theorem isInherited_asks :
    Shell.IsInherited fun {α : Type} (x : Shell α) => Shell.Asks [] x where
  pure a := Shell.asks_pure a
  bind hx hf := hx.bind hf
  get := Shell.asks_of_desk fun _ => rfl
  ask question := Shell.asks_of_desk fun _ => (Site.rests_ask question).desk
  note source level text := Shell.asks_of_desk fun _ => rfl
  check := Shell.asks_of_desk fun _ => rfl
  run {r} _ := (Shell.asks_of_desk fun _ => rfl : Shell.Asks [] Shell.check).bind fun _ =>
    (Shell.asks_launch r).bind fun script => Shell.asks_await r script
  page output := by
    cases PageReading.pageOf output with
    | ok page => exact Shell.asks_pure page
    | error e => exact Shell.asks_throw e
  skip hx hhandle := hx.tryCatch fun e => .ite (hhandle e) (Shell.asks_throw e)

/-! ## Layers -/

namespace Batch

variable {j : Job} {r : Report}

theorem asks_onFault {layer : Shell Report} {handle : Fault → Shell Report} {asked : List ChatRequest}
    (hlayer : Shell.Asks asked layer) (hhandle : ∀ e, Shell.Asks [] (handle e)) :
    Shell.Asks asked (Shell.onFault layer handle) :=
  hlayer.tryCatch fun e => .ite (Shell.asks_throw e) (hhandle e)

theorem asks_orCancelled {stage : LayerKind} {layer : Shell Report} {asked : List ChatRequest}
    (h : Shell.Asks asked layer) : Shell.Asks asked (orCancelled j stage r layer) := by
  refine (h.map _).tryCatch fun e => .ite ?_ (Shell.asks_throw e)
  exact (Shell.asks_pure _).reported _

theorem asks_textRun (j : Job) : Shell.Asks [] (textRun j) := by
  refine asks_orCancelled (.reported (asks_onFault ?_ fun e => ?_) _)
  · exact (isInherited_asks.extract _ _ _).bind fun text => (Shell.asks_pure _).reported _
  · exact (Shell.asks_pure _).reported _

theorem asks_pagesRun (j : Job) (r : Report) : Shell.Asks [] (pagesRun j r) := by
  rw [pagesRun]
  refine .ite (asks_orCancelled ((isInherited_asks.ask _).bind fun available => .ite ?_ ?_))
    (Shell.asks_pure _)
  · exact (Shell.asks_pure _).reported _
  · refine .reported (asks_onFault ?_ fun e => ?_) _
    · exact (isInherited_asks.read _ _ _).bind fun p => (Shell.asks_pure _).reported _
    · exact (Shell.asks_pure _).reported _

/-- The model is asked once. -/
theorem asks_modelRun (j : Job) (r : Report) (client : ChatClient) :
    Shell.Asks [.complete client.model (j.prompt r).messages] (modelRun j r client) := by
  refine asks_orCancelled (.reported (.bind (.tryCatch ((Shell.asks_complete client _).map _)
    fun e => .ite (Shell.asks_throw e) ((Shell.asks_pure _).reported _)) fun answer => ?_) _)
  cases answer with
  | error r' => exact Shell.asks_pure r'
  | ok reply =>
    refine .tryCatch (.bind ?_ fun hints => (Shell.asks_pure _).reported _) fun e => ?_
    · refine Shell.asks_of_desk fun s => ?_
      rw [readReply_eq]
      exact (Site.rests_records (fun text => ⟨.reply, .debug, text⟩) (Reply.remarks reply) s).desk
    · cases e with
      | reply text raw => exact (Shell.asks_pure _).reported _
      | _ => exact Shell.asks_throw _

/-! ## Runs -/

theorem asks_layersRun (j : Job) : Shell.Asks [] (layersRun j) :=
  (asks_textRun j).bind fun p => .ite (asks_pagesRun j p.2) (Shell.asks_pure _)

/-- The layers before the model are the text layer and the pages. -/
theorem reachesPages_of_layersRun {s t : Site} (hdata : j.data.isEmpty = false)
    (h : layersRun j (started j s) = (.ok (true, r), t)) :
    ∃ r' t', ReachesPages j s r' t' ∧ pagesRun j r' t' = (.ok (true, r), t) := by
  rcases htext : textRun j (started j s) with ⟨outcome, t'⟩
  cases outcome with
  | error e => cases (Shell.bind_of_error htext).symm.trans h
  | ok p =>
    obtain ⟨goesOn, r'⟩ := p
    rw [layersRun, Shell.bind_of_ok htext] at h
    cases goesOn with
    | false => cases h
    | true => exact ⟨r', t', ⟨hdata, htext⟩, h⟩

theorem desk_run (hdata : j.data.isEmpty = false) (s : Site) :
    (run j s).2.desk = (stages j (started j s)).2.desk := by
  rcases hstages : stages j (started j s) with ⟨outcome, t⟩
  cases outcome with
  | ok r =>
    obtain ⟨t', hrun, hdesk⟩ := run_of_stages_ok hdata hstages
    rw [hrun, hdesk]
  | error e => rw [run_of_stages_error hdata hstages]

/-- A run asks nothing, or it gets to its model and asks it once. -/
theorem asks_of_run (j : Job) (s : Site) :
    (run j s).2.desk.requests = s.desk.requests ∨
      ∃ client r t, ReachesModel j s client r t ∧ (run j s).2.desk.requests =
        s.desk.requests ++ [.complete client.model (j.prompt r).messages] := by
  cases hdata : j.data.isEmpty with
  | true =>
    rw [run, hdata, if_pos rfl]
    exact Or.inl rfl
  | false =>
    have hasked : (layersRun j (started j s)).2.desk.requests = s.desk.requests ++ [] :=
      asks_layersRun j (started j s)
    rw [List.append_nil] at hasked
    rw [desk_run hdata]
    rcases hlayers : layersRun j (started j s) with ⟨outcome, t⟩
    rw [hlayers] at hasked
    cases outcome with
    | error e =>
      rw [stages_eq, Shell.bind_of_error hlayers]
      exact Or.inl hasked
    | ok p =>
      obtain ⟨goesOn, r⟩ := p
      rw [stages_of_layersRun hlayers]
      cases goesOn with
      | false => exact Or.inl hasked
      | true =>
        rw [if_pos rfl, modelPart]
        cases hclient : j.modelInUse with
        | none => exact Or.inl hasked
        | some client =>
          cases htext : hasText r with
          | false => exact Or.inl hasked
          | true =>
            have hreach := reachesPages_of_layersRun hdata hlayers
            refine Or.inr ⟨client, r, t, ⟨hclient, htext, hreach⟩, ?_⟩
            dsimp only
            rw [if_pos rfl, Shell.bind_pure_eq, asks_modelRun, hasked]

end Batch
end Intake
