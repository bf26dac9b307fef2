import Intake.Proofs.Session.Heard

/-!
# Changes of a session

What one move may do to the session that is open.  The handlers are taken
apart here, once; what holds of every change of a session is then a case
analysis.

There are three groups.

* Changes.  `Session.Change` has one constructor for each kind of turn that
  leaves a session open, with what was heard and the command that was given.
* Turns.  What the turns of the workbench do to the open session.
* Moves.  `change_of_move` says that a session after a move is a new one, or
  a change of the one before.
-/

namespace Intake

/-! ## Changes -/

/-- The model is to be asked again, by a key or by a call. -/
def Happening.IsRerun (a : Happening) : Prop := a = .reruns ∨ a = .handles (.key .rerun)

namespace Session

/-- A session that has just begun.  Its number is new, and no reply was opened
for it. -/
structure Begins (s : Session) (opened : Nat) (command : Option Command) : Prop where
  number : opened < s.number
  reply : s.reply = none
  command : ∀ owner stream, command ≠ some (.awaitChunk owner stream)

/-- How a session goes on when its pages' step is over: its model's step
starts, or the session is done. -/
inductive GoesOn (s : Session) : Option Command → Session → Prop where
  | asks (now : Float) (model : String) (client : ChatClient) (messages : List Message)
      (hllm : s.hasLlm = true) :
      GoesOn s (some (.openReply s.number client messages)) (s.modelStarted now model)
  | finishes (hllm : s.hasLlm = false) : GoesOn s none { s with done := true }

/-- How the reading of the whole reply leaves a session. -/
inductive Concludes (s : Session) : Session → Prop where
  | reads {hints : Hints} (hread : Reply.read s.replyText = .ok hints) :
      Concludes s (s.replyRead hints)
  | refuses {m : Reply.Malformed} (hread : Reply.read s.replyText = .error (.malformed m)) :
      Concludes s (s.replyRefused m)
  | overflows (hread : Reply.read s.replyText = .error .overflow) : Concludes s s

/-- What a move does to a session that stays open. -/
inductive Change (s : Session) (e : Entry) : Session → Prop where
  /-- Nothing was heard for the session.  At most its view changed, or it was
  told the number of a worker. -/
  | views (progress : Option Nat) (cursor : Int) (chosen : List (LayerKind × Bool))
      (hheard : ∀ d, e.heard? = some d → d.owner? ≠ some s.number) (hcommand : e.command = none) :
      Change s e { s with progress := progress, cursor := cursor, chosen := chosen }
  | pagesMoved {p : Progress} (hstands : s.Stands (some .ocr))
      (hheard : e.what = .handles (.progress s.number p)) (hlast : ¬ p.IsLast)
      (hcommand : e.command = some (.awaitProgress s.number s.progress)) :
      Change s e (s.pagesMoved p)
  | pagesFailed {p : Progress} {f : Fault} {s' : Session} (now : Float)
      (hstands : s.Stands (some .ocr)) (hheard : e.what = .handles (.progress s.number p))
      (hfault : p.fault = some f) (hnext : (s.pagesFailed now f).GoesOn e.command s') :
      Change s e s'
  | pagesRead {p : Progress} {s' : Session} (now : Float) (hstands : s.Stands (some .ocr))
      (hheard : e.what = .handles (.progress s.number p)) (hfault : p.fault = none)
      (hdone : p.done = true)
      (hnext : (s.pagesRead now ⟨p.text, p.table⟩).GoesOn e.command s') : Change s e s'
  | replyOpened {stream : Nat} (hstands : s.Stands (some .llm))
      (hheard : e.what = .handles (.replyOpened s.number stream))
      (hcommand : e.command = some (.awaitChunk s.number (some stream))) :
      Change s e { s with reply := some stream }
  | replyGrown {c : Chunk} (hstands : s.Stands (some .llm))
      (hheard : e.what = .handles (.chunk s.number c)) (hlast : ¬ c.IsLast)
      (hcommand : e.command = some (.awaitChunk s.number s.reply)) :
      Change s e (s.replyGrown c.text)
  | replyFailed {c : Chunk} {f : Fault} (now : Float) (hstands : s.Stands (some .llm))
      (hheard : e.what = .handles (.chunk s.number c)) (hfault : c.fault = some f)
      (hcommand : e.command = none) : Change s e (s.replyFailed now f)
  | replyEnded {c : Chunk} {s' : Session} (now : Float) (hstands : s.Stands (some .llm))
      (hheard : e.what = .handles (.chunk s.number c)) (hfault : c.fault = none)
      (hdone : c.done = true) (hcommand : e.command = none)
      (hread : ((s.replyGrown c.text).replyEnded now).Concludes s') : Change s e s'
  | reruns (now : Float) (model : String) (client : ChatClient) (messages : List Message)
      (hstands : s.Stands none) (hllm : s.hasLlm = true) (hrerun : e.what.IsRerun)
      (hcommand : e.command = some (.openReply s.number client messages)) :
      Change s e (s.modelReset.modelStarted now model)

variable {s s' : Session} {e : Entry}

theorem GoesOn.number {command : Option Command} (h : s.GoesOn command s') :
    s'.number = s.number := by
  cases h with
  | asks => rfl
  | finishes => rfl

theorem Concludes.number (h : s.Concludes s') : s'.number = s.number := by
  cases h with
  | reads => rfl
  | refuses => rfl
  | overflows => rfl

theorem Change.number (h : s.Change e s') : s'.number = s.number := by
  cases h with
  | pagesFailed now _ _ _ hnext => exact hnext.number
  | pagesRead now _ _ _ _ hnext => exact hnext.number
  | replyGrown => exact Workbench.number_replyGrown s _
  | replyEnded now _ _ _ _ _ hread => exact hread.number.trans (Workbench.number_replyGrown s _)
  | _ => rfl

/-- Nothing was heard for a session and nothing was asked. -/
theorem Change.views_self (s : Session)
    (hheard : ∀ d, e.heard? = some d → d.owner? ≠ some s.number) (hcommand : e.command = none) :
    s.Change e s :=
  .views s.progress s.cursor s.chosen hheard hcommand

end Session

/-! ## Turns -/

namespace Workbench

variable {w : Workbench} {s s' : Session} {e : Entry}

theorem goesOn_afterPages (hs : s.hasLlm = w.clientInUse.isSome) (now : Float)
    (hs' : (w.afterPages now s).bench.session = some s') :
    s.GoesOn (w.afterPages now s).command? s' := by
  revert hs'
  rw [afterPages]
  split
  · rename_i client hclient hllm
    rintro ⟨⟩
    exact .asks now w.modelLabel client _ hllm
  · rename_i hnone
    rintro ⟨⟩
    refine .finishes (Bool.eq_false_iff.2 fun hllm => ?_)
    rw [hllm] at hs
    obtain ⟨client, hclient⟩ := Option.isSome_iff_exists.1 hs.symm
    exact hnone client hclient hllm

theorem change_onProgress (hstands : s.Stands (some .ocr)) (hs : s.hasLlm = w.clientInUse.isSome)
    (now : Float) {p : Progress} (hheard : e.what = .handles (.progress s.number p))
    (hcommand : e.command = (w.onProgress now s p).command?)
    (hs' : (w.onProgress now s p).bench.session = some s') : s.Change e s' := by
  rw [onProgress] at hcommand hs'
  cases hfault : p.fault with
  | some f =>
    rw [hfault] at hcommand hs'
    have hnext := goesOn_afterPages (s := s.pagesFailed now f) hs now hs'
    rw [← hcommand] at hnext
    exact .pagesFailed now hstands hheard hfault hnext
  | none =>
    rw [hfault] at hcommand hs'
    dsimp only at hcommand hs'
    cases hdone : p.done with
    | true =>
      rw [hdone, if_pos rfl] at hcommand hs'
      have hnext := goesOn_afterPages (s := s.pagesRead now ⟨p.text, p.table⟩) hs now hs'
      rw [← hcommand] at hnext
      exact .pagesRead now hstands hheard hfault hdone hnext
    | false =>
      rw [hdone] at hcommand hs'
      obtain rfl : s.pagesMoved p = s' := Option.some.inj hs'
      refine .pagesMoved hstands hheard (fun hlast => ?_) hcommand
      rcases hlast with hlast | hlast
      · exact Bool.noConfusion (hdone.symm.trans hlast)
      · exact hlast hfault

theorem concludes_readReply (hs' : (w.readReply s).bench.session = some s') :
    s.Concludes s' ∧ (w.readReply s).command? = none := by
  revert hs'
  rw [readReply]
  cases hread : Reply.read s.replyText with
  | ok hints =>
    rintro ⟨⟩
    exact ⟨.reads hread, rfl⟩
  | error failure =>
    cases failure with
    | malformed m =>
      rintro ⟨⟩
      exact ⟨.refuses hread, rfl⟩
    | overflow =>
      rintro ⟨⟩
      exact ⟨.overflows hread, rfl⟩

theorem change_onChunk (hstands : s.Stands (some .llm)) (now : Float) {c : Chunk}
    (hheard : e.what = .handles (.chunk s.number c))
    (hcommand : e.command = (w.onChunk now s c).command?)
    (hs' : (w.onChunk now s c).bench.session = some s') : s.Change e s' := by
  rw [onChunk] at hcommand hs'
  cases hfault : c.fault with
  | some f =>
    rw [hfault] at hcommand hs'
    obtain rfl : s.replyFailed now f = s' := Option.some.inj hs'
    exact .replyFailed now hstands hheard hfault hcommand
  | none =>
    rw [hfault] at hcommand hs'
    cases hdone : c.done with
    | true =>
      simp only [hdone, if_true] at hcommand hs'
      obtain ⟨hread, hnone⟩ := concludes_readReply hs'
      exact .replyEnded now hstands hheard hfault hdone (hcommand.trans hnone) hread
    | false =>
      simp only [hdone, Bool.false_eq_true, if_false] at hcommand hs'
      obtain rfl : s.replyGrown c.text = s' := Option.some.inj hs'
      obtain ⟨received, logs, hgrown, -⟩ := replyGrown_eq s c.text
      rw [show (s.replyGrown c.text).reply = s.reply by rw [hgrown], number_replyGrown] at hcommand
      refine .replyGrown hstands hheard (fun hlast => ?_) hcommand
      rcases hlast with hlast | hlast
      · exact Bool.noConfusion (hdone.symm.trans hlast)
      · exact hlast hfault

/-- What is delivered for the step at which the open session works. -/
theorem change_take {k : LayerKind} (hstands : s.Stands (some k))
    (hs : s.hasLlm = w.clientInUse.isSome) {d : Delivery} (howner : d.owner? = some s.number)
    (hlayer : d.layer? = some k) (now : Float) (hheard : e.what = .handles d)
    (hcommand : e.command = (w.take now s d).command?)
    (hs' : (w.take now s d).bench.session = some s') : s.Change e s' := by
  cases d with
  | progress owner p =>
    obtain rfl : LayerKind.ocr = k := Option.some.inj hlayer
    obtain rfl : owner = s.number := Option.some.inj howner
    exact change_onProgress hstands hs now hheard hcommand hs'
  | replyOpened owner stream =>
    obtain rfl : LayerKind.llm = k := Option.some.inj hlayer
    obtain rfl : owner = s.number := Option.some.inj howner
    obtain rfl : { s with reply := some stream } = s' := Option.some.inj hs'
    exact .replyOpened hstands hheard hcommand
  | chunk owner c =>
    obtain rfl : LayerKind.llm = k := Option.some.inj hlayer
    obtain rfl : owner = s.number := Option.some.inj howner
    exact change_onChunk hstands now hheard hcommand hs'
  | key k' => cases howner
  | other owner => cases hlayer

theorem change_rerun (hw : w.session = some s) {k? : Option LayerKind} (hstands : s.Stands k?)
    (now : Float) (hwhat : e.what.IsRerun) (hcommand : e.command = (w.rerun now).command?)
    (hs' : (w.rerun now).bench.session = some s') : s.Change e s' := by
  have hheard : ∀ d, e.heard? = some d → d.owner? ≠ some s.number := by
    intro d hd howner
    rw [Entry.heard?] at hd
    rcases hwhat with hwhat | hwhat
    · rw [hwhat] at hd
      cases hd
    · rw [hwhat] at hd
      cases hd
      cases howner
  have hself : w.session = some s' → e.command = none → s.Change e s' := by
    intro hs' hcommand
    obtain rfl : s = s' := Option.some.inj (hw.symm.trans hs')
    exact .views_self s hheard hcommand
  rw [rerun] at hcommand hs'
  rw [hw] at hcommand hs'
  cases hclient : w.clientInUse with
  | none =>
    rw [hclient] at hcommand hs'
    exact hself hs' hcommand
  | some client =>
    rw [hclient] at hcommand hs'
    dsimp only at hcommand hs'
    split at hs'
    · rename_i hrerun
      rw [if_pos hrerun] at hcommand
      simp only [canRerun, Bool.and_eq_true] at hrerun
      obtain rfl := Session.eq_none_of_done hstands hrerun.1.1
      obtain rfl : s.modelReset.modelStarted now w.modelLabel = s' := Option.some.inj hs'
      exact .reruns now w.modelLabel client _ hstands hrerun.1.2 hwhat hcommand
    · rename_i hrerun
      rw [if_neg hrerun] at hcommand
      exact hself hs' hcommand

/-- A key changes the view of the open session, or asks its model again. -/
theorem change_onKey (hw : w.session = some s) {k? : Option LayerKind} (hstands : s.Stands k?)
    (now : Float) {k : Key}
    (hheard : ∀ d, e.heard? = some d → d.owner? ≠ some s.number)
    (hwhat : k = .rerun → e.what.IsRerun) (hcommand : e.command = (w.onKey now k).command?)
    (hs' : (w.onKey now k).bench.session = some s') : s.Change e s' := by
  have hview : ∀ f : Session → Session, (w.onSession f).session = some (f s) := by
    intro f
    rw [onSession, hw]
    rfl
  unfold onKey at hcommand hs'
  rw [hw] at hcommand hs'
  cases k with
  | escape =>
    rw [show (⟨w.cancel, .ok none⟩ : Turn).bench = w.cancel from rfl,
      (frames_cancel w).2.2.1] at hs'
    cases hs'
  | rerun => exact change_rerun hw hstands now (hwhat rfl) hcommand hs'
  | accept =>
    rcases session_accept w with hnone | hsame
    · cases hnone.symm.trans hs'
    · obtain rfl : s = s' := Option.some.inj (hw.symm.trans (hsame.symm.trans hs'))
      exact .views_self s hheard (hcommand.trans (command?_map_none _ _))
  | down =>
    obtain rfl : s.moveBy 1 = s' := Option.some.inj ((hview _).symm.trans hs')
    exact .views s.progress _ s.chosen hheard hcommand
  | up =>
    obtain rfl : s.moveBy (-1) = s' := Option.some.inj ((hview _).symm.trans hs')
    exact .views s.progress _ s.chosen hheard hcommand
  | enter =>
    obtain rfl : s.toggle = s' := Option.some.inj ((hview _).symm.trans hs')
    exact .views s.progress s.cursor _ hheard hcommand
  | other =>
    obtain rfl : s = s' := Option.some.inj (hw.symm.trans hs')
    exact .views_self s hheard hcommand

theorem begins_open {now : Float} {document : Int} {filename : String} {data : Text.Utf8.Bytes}
    {mime text : String}
    (hs' : (w.open now document filename data mime text).bench.session = some s') :
    s'.Begins w.opened (w.open now document filename data mime text).command? := by
  revert hs'
  rw [Workbench.open]
  split
  · rintro ⟨⟩
    exact ⟨Nat.lt_succ_self _, rfl, fun _ _ hc => by cases hc⟩
  · rintro ⟨⟩
    exact ⟨Nat.lt_succ_self _, rfl, fun _ _ hc => by cases hc⟩
  · rw [show (⟨w.cancel.note _ _ _, .ok none⟩ : Turn).bench.session = w.cancel.session from rfl,
      (frames_cancel w).2.2.1]
    rintro ⟨⟩

end Workbench

/-! ## Moves -/

namespace Office

variable {o o' : Office} {e : Entry} {s' : Session}

/-- A key that was handled, or a direct call that does what the key does. -/
theorem change_key (hsound : o.Sound False) (now : Float) {k : Key}
    (hheard : ∀ d, e.heard? = some d → d.owner? = none) (hwhat : k = .rerun → e.what.IsRerun)
    (hcommand : e.command = (o.bench.handle now (.key k)).command?)
    (hs' : (o.bench.handle now (.key k)).bench.session = some s') :
    ∃ s, o.bench.session = some s ∧ s.Change e s' := by
  cases hs : o.bench.session with
  | none =>
    rw [Workbench.handle_key_of_none hs] at hs'
    cases hs.symm.trans hs'
  | some s =>
    obtain ⟨k?, hstands, -⟩ := (hsound.session s hs).stands
    rw [Workbench.handle_key_of_some hs] at hcommand hs'
    refine ⟨s, rfl,
      Workbench.change_onKey hs hstands now (fun d hd howner => ?_) hwhat hcommand hs'⟩
    cases (hheard d hd).symm.trans howner

theorem change_handle (hsound : o.Sound False) {i : Nat} {d : Delivery}
    (hd : o.loop.queue[i]? = some d) {now : Float} (hwhat : e.what = .handles d)
    (hcommand : e.command = (o.bench.handle now d).command?)
    (hs' : (o.bench.handle now d).bench.session = some s') :
    ∃ s, o.bench.session = some s ∧ s.Change e s' := by
  have hheard : ∀ d', e.heard? = some d' → d' = d := by
    intro d' hd'
    rw [Entry.heard?, hwhat] at hd'
    exact (Option.some.inj hd').symm
  cases howner : d.owner? with
  | none =>
    obtain ⟨k, rfl⟩ := Delivery.eq_key_of_owner?_eq_none howner
    refine change_key hsound now (fun d' hd' => hheard d' hd' ▸ howner) ?_ hcommand hs'
    rintro rfl
    exact Or.inr hwhat
  | some owner =>
    by_cases hopen : ∀ s ∈ o.bench.session, s.number ≠ owner
    · rw [Workbench.handle_of_not_owner now howner hopen] at hcommand hs'
      have hs := (Workbench.drop_frames o.bench d).2.symm.trans hs'
      refine ⟨s', hs, .views_self s' (fun d' hd' hmine => ?_) hcommand⟩
      rw [hheard d' hd', howner] at hmine
      exact hopen s' hs (Option.some.inj hmine).symm
    · simp only [not_forall, not_not] at hopen
      obtain ⟨s, hs, rfl⟩ := hopen
      have hattends := hsound.session s hs
      obtain ⟨k?, hstands, hworks⟩ := hattends.stands
      obtain ⟨-, k, rfl, hlayer⟩ := (hworks.perm (items_without hd)).rest howner
      rw [Workbench.handle_of_owner hs howner] at hcommand hs'
      exact ⟨s, hs, Workbench.change_take hstands hattends.hasLlm howner hlayer now hwhat
        hcommand hs'⟩

/-- The session that is open after a move is a change of the one before,
unless a session was opened. -/
theorem change_of_move_ne (hsound : o.Sound False) (hmove : Move o e o') (hwhat : e.what ≠ .opens)
    (hs' : o'.bench.session = some s') : ∃ s, o.bench.session = some s ∧ s.Change e s' := by
  cases hmove with
  | opens => exact absurd rfl hwhat
  | reruns now =>
    refine change_key hsound now (k := .rerun) (fun d hd => by cases hd) (fun _ => Or.inl rfl) ?_ ?_
    · rw [← Workbench.rerun_eq_handle]
      rfl
    · rw [← Workbench.rerun_eq_handle]
      exact hs'
  | cancels =>
    rw [show (⟨o.bench.cancel, o.loop⟩ : Office).bench.session = o.bench.cancel.session from rfl,
      (Workbench.frames_cancel o.bench).2.2.1] at hs'
    cases hs'
  | accepts =>
    refine change_key hsound 0 (k := .accept) (fun d hd => by cases hd) (fun hk => by cases hk)
      (Workbench.command?_accept _ _).symm ?_
    rw [← Workbench.accept_eq_handle]
    exact hs'
  | presses k => exact ⟨s', hs', .views_self s' (fun d hd => (by cases hd)) rfl⟩
  | @carries i task s htask hbench =>
    rcases bench_carry hbench i task with hcarry | ⟨owner, stream, hcarry⟩
    · rw [hcarry] at hs'
      exact ⟨s', hs', .views_self s' (fun d hd => (by cases hd)) rfl⟩
    · rw [hcarry] at hs'
      obtain ⟨s, hs, rfl⟩ := Option.map_eq_some_iff.1 hs'
      refine ⟨s, hs, ?_⟩
      rw [Workshop.informed]
      split
      · exact .views _ s.cursor s.chosen (fun d hd => (by cases hd)) rfl
      · exact .views_self s (fun d hd => (by cases hd)) rfl
  | handles now hd => exact change_handle hsound hd rfl rfl hs'

/-- The session that is open after a move has just begun, or is a change of
the one before. -/
theorem change_of_move (hsound : o.Sound False) (hmove : Move o e o')
    (hs' : o'.bench.session = some s') :
    s'.Begins o.bench.opened e.command ∨ ∃ s, o.bench.session = some s ∧ s.Change e s' := by
  by_cases hwhat : e.what = .opens
  · cases hmove with
    | @opens s work hwork hbench =>
      obtain ⟨w, hprepares, hturn⟩ := Workshop.opens_cases hwork s
      rw [hbench] at hprepares
      have hopened := hprepares.spares.opened
      have hsession : w.session = o.bench.session := by
        obtain ⟨_, _, rfl⟩ := hprepares
        rfl
      rcases hturn with ⟨f, hturn⟩ | ⟨now, document, filename, data, mime, text, hturn⟩
      · rw [hturn] at hs' ⊢
        exact Or.inr ⟨s', hsession.symm.trans hs', .views_self s' (fun d hd => (by cases hd)) rfl⟩
      · rw [hturn] at hs' ⊢
        rw [← hopened]
        exact Or.inl (Workbench.begins_open hs')
    | _ => cases hwhat
  · exact Or.inr (change_of_move_ne hsound hmove hwhat hs')

end Office
end Intake
