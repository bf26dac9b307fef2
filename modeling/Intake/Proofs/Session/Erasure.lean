import Intake.Proofs.Session.Saved

/-!
# What sessions do not depend on

The number of a session and the readings of a clock play no part in what a
workbench does.  Both can be erased before a turn or after it.

There are four groups.

* Erasure.  `Session.erased` is a session without its number and without
  times, and `Workbench.erased` is what a workbench holds for one session.
* Changes.  Each change of a session commutes with the erasure.
* Turns.  Each turn of a workbench commutes with it; `erased_handle` is the
  result.
* Foreign deliveries.  `erased_handle_of_foreign` says that what is for
  another session changes nothing that is left.
-/

namespace Intake

open Text

/-! ## Erasure -/

/-- A step without the readings of a clock. -/
def StepInfo.timeless (i : StepInfo) : StepInfo := { i with elapsed := 0, started := none }

/-- A session without its number and without the readings of a clock. -/
def Session.erased (s : Session) : Session :=
  { s with
    number := 0
    text := s.text.timeless
    ocr := s.ocr.timeless
    llm := s.llm.timeless }

/-- A command for a session of another number. -/
def Command.addressed (n : Nat) : Command → Command
  | .readPages _ data mime cap => .readPages n data mime cap
  | .awaitProgress _ stream => .awaitProgress n stream
  | .openReply _ client messages => .openReply n client messages
  | .awaitChunk _ stream => .awaitChunk n stream

/-- What is delivered, for a session of another number. -/
def Delivery.addressed (n : Nat) : Delivery → Delivery
  | .progress _ p => .progress n p
  | .replyOpened _ stream => .replyOpened n stream
  | .chunk _ c => .chunk n c
  | .key k => .key k
  | .other _ => .other n

/-- What a workbench holds for the session of a number. -/
def Workbench.erased (n : Nat) (w : Workbench) : Workbench where
  store := w.store
  client := w.client
  settings := w.settings
  session := w.session.map Session.erased
  statusError := w.statusError
  fired := if w.hasFired n then [0] else []

/-- A turn as the session of a number sees it. -/
def Turn.erased (n : Nat) (t : Turn) : Turn where
  bench := t.bench.erased n
  outcome := t.outcome.map (·.map (·.addressed 0))

theorem Command.addressed_addressed (m n : Nat) (c : Command) :
    (c.addressed m).addressed n = c.addressed n := by
  cases c with
  | _ => rfl

theorem Command.addressed_owner (c : Command) : c.addressed c.owner = c := by
  cases c with
  | _ => rfl

/-! ## Changes -/

namespace Session

variable (s : Session) (now : Float)

theorem status_info_erased (k : LayerKind) : (s.erased.info k).status = (s.info k).status := by
  cases k with
  | _ => rfl

theorem erased_pagesMoved (p : Progress) :
    (s.erased.pagesMoved p).erased = (s.pagesMoved p).erased := rfl

theorem erased_pagesFailed (e : Fault) :
    (s.erased.pagesFailed 0 e).erased = (s.pagesFailed now e).erased := rfl

theorem erased_pagesRead (p : Page) :
    (s.erased.pagesRead 0 p).erased = (s.pagesRead now p).erased := rfl

theorem erased_replyGrown (piece : String) :
    (s.erased.replyGrown piece).erased = (s.replyGrown piece).erased := by
  rw [replyGrown, replyGrown]
  split
  · rfl
  · rfl

theorem erased_replyEnded : (s.erased.replyEnded 0).erased = (s.replyEnded now).erased := rfl

theorem erased_replyRead (h : Hints) :
    (s.erased.replyRead h).erased = (s.replyRead h).erased := rfl

theorem erased_replyRefused (m : Reply.Malformed) :
    (s.erased.replyRefused m).erased = (s.replyRefused m).erased := rfl

theorem erased_replyFailed (e : Fault) :
    (s.erased.replyFailed 0 e).erased = (s.replyFailed now e).erased := rfl

theorem erased_modelStarted (model : String) :
    (s.erased.modelStarted 0 model).erased = (s.modelStarted now model).erased := rfl

theorem erased_modelReset : s.erased.modelReset.erased = s.modelReset.erased := by
  have hactive : s.erased.active = s.active := rfl
  simp only [modelReset, status_info_erased, hactive]
  rfl

theorem erased_moveBy (by_ : Int) : (s.erased.moveBy by_).erased = (s.moveBy by_).erased := rfl

theorem erased_toggle : s.erased.toggle.erased = s.toggle.erased := by
  have hstep : s.erased.cursorStep = s.cursorStep := rfl
  have hexpanded : s.erased.isExpanded s.cursorStep = s.isExpanded s.cursorStep := by
    rw [isExpanded, isExpanded, status_info_erased]
    rfl
  rw [toggle, toggle, hstep, hexpanded]
  rfl

theorem canAccept_erased : s.erased.canAccept = s.canAccept := by
  have hactive : s.erased.active = s.active := rfl
  simp only [canAccept, anyFailed, status_info_erased, hactive]
  rfl

end Session

/-! ## Turns -/

namespace Workbench

variable {n n' : Nat} {w w' : Workbench} {s s' : Session} (now now' : Float)

theorem erased_withSession (hw : w'.erased n' = w.erased n) (h : s'.erased = s.erased) :
    (w'.withSession s').erased n' = (w.withSession s).erased n := by
  show { w'.erased n' with session := some s'.erased } =
    { w.erased n with session := some s.erased }
  rw [hw, h]

theorem erased_remarks (texts : List String) (w : Workbench) :
    (texts.foldl (fun w text => w.note .reply .debug text) w).erased n = w.erased n := by
  induction texts generalizing w with
  | nil => rfl
  | cons text rest ih => exact ih (w.note .reply .debug text)

theorem erased_knownEntities (w : Workbench) : w.knownEntities.2.erased n = w.erased n := by
  rw [knownEntities]
  split
  · rfl
  · split
    · rfl
    · rfl

theorem names_knownEntities (w : Workbench) :
    w.knownEntities.1 = (w.store.map fun store => store.knownEntities.1).getD {} := by
  rw [knownEntities]
  cases w.store with
  | none => rfl
  | some store =>
    dsimp only
    rcases hnames : store.knownEntities with ⟨names, fault⟩
    cases fault with
    | none => simp [hnames]
    | some e => simp [hnames]

/-- The model is asked the same question. -/
theorem erased_startModel (hw : w'.erased n' = w.erased n) (client : ChatClient)
    (h : s'.erased = s.erased) :
    (w'.startModel now' client s').erased n' = (w.startModel now client s).erased n := by
  have hstore : w'.store = w.store := (congrArg store hw :)
  have hlabel : w'.modelLabel = w.modelLabel := (congrArg modelLabel hw :)
  have hnames : w'.knownEntities.1 = w.knownEntities.1 := by
    rw [names_knownEntities, names_knownEntities, hstore]
  have hstarted : (s'.modelStarted now' w'.modelLabel).erased =
      (s.modelStarted now w.modelLabel).erased := by
    rw [hlabel, ← Session.erased_modelStarted, ← Session.erased_modelStarted s, h]
  have hsource : s'.source = s.source := (congrArg Session.source h :)
  have hbench : (w'.knownEntities.2.withSession (s'.modelStarted now' w'.modelLabel)).erased n' =
      (w.knownEntities.2.withSession (s.modelStarted now w.modelLabel)).erased n := by
    refine erased_withSession ?_ hstarted
    rw [erased_knownEntities, erased_knownEntities, hw]
  have hmessages : (Prompt.build w'.knownEntities.1 s'.source).messages =
      (Prompt.build w.knownEntities.1 s.source).messages := by rw [hnames, hsource]
  exact congrArg₂ (fun bench messages =>
    (⟨bench, .ok (some (.openReply 0 client messages))⟩ : Turn)) hbench hmessages

/-- After the pages the model is asked, if there is one and it is wanted. -/
theorem afterPages_cases (w : Workbench) (now : Float) (s : Session) :
    (∃ client, w.clientInUse = some client ∧ s.hasLlm = true ∧
        w.afterPages now s = w.startModel now client s) ∨
      ((w.clientInUse = none ∨ s.hasLlm = false) ∧
        w.afterPages now s = ⟨w.withSession { s with done := true }, .ok none⟩) := by
  rw [afterPages]
  cases hclient : w.clientInUse with
  | none => exact Or.inr ⟨Or.inl rfl, rfl⟩
  | some client =>
    cases hllm : s.hasLlm with
    | true => exact Or.inl ⟨client, rfl, rfl, rfl⟩
    | false => exact Or.inr ⟨Or.inr rfl, rfl⟩

theorem erased_afterPages (hw : w'.erased n' = w.erased n) (h : s'.erased = s.erased) :
    (w'.afterPages now' s').erased n' = (w.afterPages now s).erased n := by
  have hclient : w'.clientInUse = w.clientInUse := (congrArg clientInUse hw :)
  have hllm : s'.hasLlm = s.hasLlm := (congrArg Session.hasLlm h :)
  have hdone : ({ s' with done := true } : Session).erased =
      ({ s with done := true } : Session).erased := by
    show { s'.erased with done := true } = { s.erased with done := true }
    rw [h]
  rcases afterPages_cases w now s with ⟨client, hc, hl, heq⟩ | ⟨hnone, heq⟩
  · rcases afterPages_cases w' now' s' with ⟨client', hc', hl', heq'⟩ | ⟨hnone', heq'⟩
    · obtain rfl : client' = client := Option.some.inj (hc'.symm.trans (hclient.trans hc))
      rw [heq, heq']
      exact erased_startModel now now' hw client' h
    · rw [hclient, hllm, hc, hl] at hnone'
      exact absurd hnone' (by simp)
  · rcases afterPages_cases w' now' s' with ⟨client', hc', hl', heq'⟩ | ⟨hnone', heq'⟩
    · rw [← hclient, ← hllm, hc', hl'] at hnone
      exact absurd hnone (by simp)
    · rw [heq, heq']
      exact congrArg (Turn.mk · (.ok none)) (erased_withSession hw hdone)

theorem erased_onProgress (hw : w'.erased n' = w.erased n) (h : s'.erased = s.erased)
    (p : Progress) :
    (w'.onProgress now' s' p).erased n' = (w.onProgress now s p).erased n := by
  rw [onProgress, onProgress]
  split
  · refine erased_afterPages now now' hw ?_
    rw [← Session.erased_pagesFailed, ← Session.erased_pagesFailed s, h]
  · split
    · refine erased_afterPages now now' hw ?_
      rw [← Session.erased_pagesRead, ← Session.erased_pagesRead s, h]
    · have hprogress : s'.progress = s.progress := (congrArg Session.progress h :)
      have hmoved : (s'.pagesMoved p).erased = (s.pagesMoved p).erased := by
        rw [← Session.erased_pagesMoved, ← Session.erased_pagesMoved s, h]
      rw [hprogress]
      exact congrArg (Turn.mk · (.ok (some (.awaitProgress 0 s.progress))))
        (erased_withSession hw hmoved)

theorem erased_readReply (hw : w'.erased n' = w.erased n) (h : s'.erased = s.erased) :
    (w'.readReply s').erased n' = (w.readReply s).erased n := by
  have htext : s'.replyText = s.replyText := (congrArg Session.replyText h :)
  have hnoted : ((Reply.remarks s.replyText).foldl (fun w text => w.note .reply .debug text)
      w').erased n' = ((Reply.remarks s.replyText).foldl (fun w text => w.note .reply .debug text)
        w).erased n := by
    rw [erased_remarks, erased_remarks, hw]
  rw [readReply, readReply, htext]
  cases Reply.read s.replyText with
  | ok hints =>
    have hread : (s'.replyRead hints).erased = (s.replyRead hints).erased := by
      rw [← Session.erased_replyRead, ← Session.erased_replyRead s, h]
    exact congrArg (Turn.mk · (.ok none)) (erased_withSession hnoted hread)
  | error failure =>
    cases failure with
    | malformed m =>
      have hrefused : (s'.replyRefused m).erased = (s.replyRefused m).erased := by
        rw [← Session.erased_replyRefused, ← Session.erased_replyRefused s, h]
      exact congrArg (Turn.mk · (.ok none)) (erased_withSession hnoted hrefused)
    | overflow => exact congrArg (Turn.mk · (.error .overflow)) (erased_withSession hnoted h)

theorem erased_onChunk (hw : w'.erased n' = w.erased n) (h : s'.erased = s.erased) (c : Chunk) :
    (w'.onChunk now' s' c).erased n' = (w.onChunk now s c).erased n := by
  rw [onChunk, onChunk]
  split
  · rename_i e _
    have hfailed : (s'.replyFailed now' e).erased = (s.replyFailed now e).erased := by
      rw [← Session.erased_replyFailed, ← Session.erased_replyFailed s, h]
    exact congrArg (Turn.mk · (.ok none)) (erased_withSession hw hfailed)
  · have hgrown : (s'.replyGrown c.text).erased = (s.replyGrown c.text).erased := by
      rw [← Session.erased_replyGrown, ← Session.erased_replyGrown s, h]
    dsimp only
    split
    · refine erased_readReply hw ?_
      rw [← Session.erased_replyEnded, ← Session.erased_replyEnded (s.replyGrown c.text), hgrown]
    · have hreply : (s'.replyGrown c.text).reply = (s.replyGrown c.text).reply :=
        (congrArg Session.reply hgrown :)
      rw [hreply]
      exact congrArg (Turn.mk · (.ok (some (.awaitChunk 0 (s.replyGrown c.text).reply))))
        (erased_withSession hw hgrown)

/-! ### Keys -/

/-- Both workbenches have a session open, or neither has. -/
theorem sessions_of_erased (hw : w'.erased n' = w.erased n) :
    (w.session = none ∧ w'.session = none) ∨
      ∃ s s', w.session = some s ∧ w'.session = some s' ∧ s'.erased = s.erased := by
  have hsessions : w'.session.map Session.erased = w.session.map Session.erased :=
    (congrArg session hw :)
  cases hs : w.session with
  | none =>
    rw [hs, Option.map_none, Option.map_eq_none_iff] at hsessions
    exact Or.inl ⟨rfl, hsessions⟩
  | some s =>
    rw [hs, Option.map_some, Option.map_eq_some_iff] at hsessions
    obtain ⟨s', hs', h⟩ := hsessions
    exact Or.inr ⟨s, s', rfl, hs', h⟩

theorem erased_onSession (hw : w'.erased n' = w.erased n) {f f' : Session → Session}
    (hf : ∀ s s' : Session, s'.erased = s.erased → (f' s').erased = (f s).erased) :
    (w'.onSession f').erased n' = (w.onSession f).erased n := by
  have hsession : (w'.session.map f').map Session.erased =
      (w.session.map f).map Session.erased := by
    rcases sessions_of_erased hw with ⟨hs, hs'⟩ | ⟨s, s', hs, hs', h⟩
    · rw [hs, hs']
      rfl
    · rw [hs, hs']
      exact congrArg some (hf s s' h)
  show { w'.erased n' with session := (w'.session.map f').map Session.erased } =
    { w.erased n with session := (w.session.map f).map Session.erased }
  rw [hw, hsession]

/-- Cancelling fires the cancellation of the session that is open. -/
theorem erased_cancel_of_some {s : Session} (hs : w.session = some s) (hnumber : s.number = n) :
    w.cancel.erased n = { w.erased n with session := none, fired := [0] } := by
  subst hnumber
  rw [cancel, hs]
  simp [erased, hasFired]

theorem erased_cancel (hw : w'.erased n' = w.erased n) (hs : ∀ s ∈ w.session, s.number = n)
    (hs' : ∀ s ∈ w'.session, s.number = n') : w'.cancel.erased n' = w.cancel.erased n := by
  rcases sessions_of_erased hw with ⟨hnone, hnone'⟩ | ⟨s, s', hsome, hsome', -⟩
  · rw [cancel, cancel, hnone, hnone']
    exact hw
  · rw [erased_cancel_of_some hsome (hs s hsome), erased_cancel_of_some hsome' (hs' s' hsome'), hw]

theorem erased_rerun (hw : w'.erased n' = w.erased n) :
    (w'.rerun now').erased n' = (w.rerun now).erased n := by
  have hclient : w'.clientInUse = w.clientInUse := (congrArg clientInUse hw :)
  have hidle : Turn.erased n' ⟨w', .ok none⟩ = Turn.erased n ⟨w, .ok none⟩ :=
    congrArg (Turn.mk · (.ok none)) hw
  rw [rerun, rerun, hclient]
  rcases sessions_of_erased hw with ⟨hs, hs'⟩ | ⟨s, s', hs, hs', h⟩
  · rw [hs, hs']
    exact hidle
  · rw [hs, hs']
    cases w.clientInUse with
    | none => exact hidle
    | some client =>
      have hagain : canRerun s' = canRerun s := (congrArg canRerun h :)
      have hreset : s'.modelReset.erased = s.modelReset.erased := by
        rw [← Session.erased_modelReset, ← Session.erased_modelReset s, h]
      dsimp only
      rw [hagain]
      split
      · exact erased_startModel now now' hw client hreset
      · exact hidle

theorem accept_of_not_canAccept (hs : w.session = some s) (haccept : s.canAccept = false) :
    w.accept = (w, .ok false) := by
  rw [accept, hs]
  simp [haccept]

theorem accept_of_save_failed (hs : w.session = some s) (haccept : s.canAccept = true)
    {store store' : Store} (hstore : w.store = some store) {e : Fault}
    (hsave : save store s = (store', .error e)) :
    w.accept = if e.isStore then ({ w with store := some store' }.saveFailed s e, .ok false)
      else ({ w with store := some store' }, .error e) := by
  rw [accept, hs]
  simp [haccept, hstore, hsave]

theorem erased_withStore (hw : w'.erased n' = w.erased n) (store : Option Store) :
    ({ w' with store := store } : Workbench).erased n' =
      ({ w with store := store } : Workbench).erased n := by
  show { w'.erased n' with store := store } = { w.erased n with store := store }
  rw [hw]

theorem erased_closed (hw : w'.erased n' = w.erased n) :
    ({ w' with session := none } : Workbench).erased n' =
      ({ w with session := none } : Workbench).erased n := by
  show { w'.erased n' with session := none } = { w.erased n with session := none }
  rw [hw]

theorem erased_saveFailed (hw : w'.erased n' = w.erased n) (s s' : Session) (e : Fault) :
    (w'.saveFailed s' e).erased n' = (w.saveFailed s e).erased n := by
  show { w'.erased n' with statusError := "save extraction: " ++ e.message } =
    { w.erased n with statusError := "save extraction: " ++ e.message }
  rw [hw]

/-- The same results are saved. -/
theorem erased_accept (hw : w'.erased n' = w.erased n) :
    w'.accept.1.erased n' = w.accept.1.erased n ∧ w'.accept.2 = w.accept.2 := by
  have hstores : w'.store = w.store := (congrArg store hw :)
  rcases sessions_of_erased hw with ⟨hs, hs'⟩ | ⟨s, s', hs, hs', h⟩
  · rw [accept, accept, hs, hs']
    exact ⟨hw, rfl⟩
  · have hsame : s'.canAccept = s.canAccept := by
      rw [← Session.canAccept_erased, h, Session.canAccept_erased]
    cases haccept : s.canAccept with
    | false =>
      rw [accept_of_not_canAccept hs haccept, accept_of_not_canAccept hs' (hsame.trans haccept)]
      exact ⟨hw, rfl⟩
    | true =>
      have haccept' := hsame.trans haccept
      cases hstore : w.store with
      | none =>
        rw [accept_of_store_eq_none hs haccept hstore,
          accept_of_store_eq_none hs' haccept' (hstores.trans hstore)]
        exact ⟨erased_closed hw, rfl⟩
      | some store =>
        have hstore' := hstores.trans hstore
        have hsave : save store s' = save store s := (congrArg (save store) h :)
        rcases houtcome : save store s with ⟨saved, outcome⟩
        have hkept := erased_withStore hw (some saved)
        cases outcome with
        | ok done =>
          rw [accept_of_save_ok hs haccept hstore houtcome,
            accept_of_save_ok hs' haccept' hstore' (hsave.trans houtcome)]
          exact ⟨erased_closed hkept, rfl⟩
        | error e =>
          rw [accept_of_save_failed hs haccept hstore houtcome,
            accept_of_save_failed hs' haccept' hstore' (hsave.trans houtcome)]
          split
          · exact ⟨erased_saveFailed hkept s s' e, rfl⟩
          · exact ⟨hkept, rfl⟩

theorem erased_onKey (hw : w'.erased n' = w.erased n) (hs : ∀ s ∈ w.session, s.number = n)
    (hs' : ∀ s ∈ w'.session, s.number = n') (k : Key) :
    (w'.onKey now' k).erased n' = (w.onKey now k).erased n := by
  have hidle : Turn.erased n' ⟨w', .ok none⟩ = Turn.erased n ⟨w, .ok none⟩ :=
    congrArg (Turn.mk · (.ok none)) hw
  have hmoves : ∀ by_ : Int, Turn.erased n' ⟨w'.onSession (·.moveBy by_), .ok none⟩ =
      Turn.erased n ⟨w.onSession (·.moveBy by_), .ok none⟩ := by
    intro by_
    refine congrArg (Turn.mk · (.ok none)) (erased_onSession hw fun s s' h => ?_)
    rw [← Session.erased_moveBy, ← Session.erased_moveBy s, h]
  unfold onKey
  rcases sessions_of_erased hw with ⟨hnone, hnone'⟩ | ⟨s, s', hsome, hsome', -⟩
  · rw [hnone, hnone']
    exact hidle
  · rw [hsome, hsome']
    cases k with
    | escape => exact congrArg (Turn.mk · (.ok none)) (erased_cancel hw hs hs')
    | rerun => exact erased_rerun now now' hw
    | accept =>
      obtain ⟨hbench, houtcome⟩ := erased_accept hw
      dsimp only
      rw [houtcome]
      exact congrArg (Turn.mk · _) hbench
    | down => exact hmoves 1
    | up => exact hmoves (-1)
    | enter =>
      refine congrArg (Turn.mk · (.ok none)) (erased_onSession hw fun s s' h => ?_)
      rw [← Session.erased_toggle, ← Session.erased_toggle s, h]
    | other => exact hidle

/-! ### Deliveries -/

theorem erased_take (hw : w'.erased n' = w.erased n) (hs : ∀ s ∈ w.session, s.number = n)
    (hs' : ∀ s ∈ w'.session, s.number = n') (h : s'.erased = s.erased) (d : Delivery) :
    (w'.take now' s' (d.addressed n')).erased n' = (w.take now s d).erased n := by
  cases d with
  | progress owner p => exact erased_onProgress now now' hw h p
  | replyOpened owner stream =>
    have hopened : ({ s' with reply := some stream } : Session).erased =
        ({ s with reply := some stream } : Session).erased := by
      show { s'.erased with reply := some stream } = { s.erased with reply := some stream }
      rw [h]
    exact congrArg (Turn.mk · (.ok (some (.awaitChunk 0 (some stream)))))
      (erased_withSession hw hopened)
  | chunk owner c => exact erased_onChunk now now' hw h c
  | key k => exact erased_onKey now now' hw hs hs' k
  | other owner => exact congrArg (Turn.mk · (.ok none)) hw

theorem erased_drop (w : Workbench) (d : Delivery) : (w.drop d).erased n = w.erased n := by
  cases d with
  | _ => rfl

/-- What is for the session of a number, or a key, brings about the same at
both workbenches. -/
theorem erased_handle (hw : w'.erased n' = w.erased n) (hs : ∀ s ∈ w.session, s.number = n)
    (hs' : ∀ s ∈ w'.session, s.number = n') {d : Delivery}
    (hd : ∀ owner, d.owner? = some owner → owner = n) :
    (w'.handle now' (d.addressed n')).erased n' = (w.handle now d).erased n := by
  have hidle : Turn.erased n' ⟨w', .ok none⟩ = Turn.erased n ⟨w, .ok none⟩ :=
    congrArg (Turn.mk · (.ok none)) hw
  rcases sessions_of_erased hw with ⟨hnone, hnone'⟩ | ⟨s, s', hsome, hsome', h⟩
  · cases howner : d.owner? with
    | none =>
      obtain ⟨k, rfl⟩ := Delivery.eq_key_of_owner?_eq_none howner
      rw [handle_key_of_none hnone]
      exact (congrArg (Turn.erased n') (handle_key_of_none hnone' now' k)).trans hidle
    | some owner =>
      have hforeign : ∀ v : Workbench, v.session = none → ∀ s ∈ v.session, s.number ≠ n' := by
        intro v hv s hs
        cases hv.symm.trans hs
      have howner' : (d.addressed n').owner? = some n' := by
        cases d with
        | key k => cases howner
        | _ => rfl
      have hnot : ∀ s ∈ w.session, s.number ≠ owner := fun s hs => by cases hnone.symm.trans hs
      rw [handle_of_not_owner now howner hnot, handle_of_not_owner now' howner' (hforeign w' hnone')]
      refine congrArg (Turn.mk · (.ok none)) ?_
      rw [erased_drop, erased_drop, hw]
  · have hhandle : w.handle now d = w.take now s d := by
      cases howner : d.owner? with
      | none =>
        obtain ⟨k, rfl⟩ := Delivery.eq_key_of_owner?_eq_none howner
        exact handle_key_of_some hsome now k
      | some owner =>
        refine handle_of_owner hsome ?_ now
        rw [howner, hs s hsome, hd owner howner]
    have hhandle' : w'.handle now' (d.addressed n') = w'.take now' s' (d.addressed n') := by
      cases d with
      | key k => exact handle_key_of_some hsome' now' k
      | _ =>
        refine handle_of_owner hsome' ?_ now'
        exact congrArg some (hs' s' hsome').symm
    rw [hhandle, hhandle']
    exact erased_take now now' hw hs hs' h d

/-! ## Foreign deliveries -/

/-- What is for another session changes nothing that is left. -/
theorem erased_handle_of_foreign (hs : ∀ s ∈ w.session, s.number = n) {d : Delivery} {owner : Nat}
    (hd : d.owner? = some owner) (hne : owner ≠ n) :
    (w.handle now d).bench.erased n = w.erased n ∧ (w.handle now d).bench.session = w.session ∧
      (w.handle now d).command? = none := by
  have hforeign : ∀ s ∈ w.session, s.number ≠ owner := by
    intro s hsome hnumber
    exact hne (hnumber.symm.trans (hs s hsome))
  rw [handle_of_not_owner now hd hforeign]
  exact ⟨erased_drop w d, (drop_frames w d).2, rfl⟩

end Workbench
end Intake
