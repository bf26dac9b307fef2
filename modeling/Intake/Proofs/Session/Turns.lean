import Intake.Proofs.Hints.ModerateReply
import Intake.Proofs.Session.Standing
import Intake.Session.Workbench

/-!
# Turns

A turn at the workbench closes the open session, leaves it where it
stands, or goes on with it: then it stands at the step of the command that
the turn gives, or it is done and there is no command.

There are six groups.

* Work.  `Command.layer` and `Delivery.layer?` are the steps that commands
  and deliveries work on.
* Frames.  `Workbench.Frames` is all that a turn leaves alone.
* Turns.  `Turn.Closes`, `Turn.Leaves` and `Turn.Continues` are the three
  kinds of turns, with one lemma for each turn of the workbench.
* Keys.  `onKey_cases` says which kind of turn a key gives.
* Deliveries.  `take_cases` says that a delivery for the step at which the
  open session works goes on with it, or leaves it where it stands.
* Sessions.  `open_cases` says how a session begins.
-/

namespace Intake

/-! ## Work -/

/-- The step that a command works on. -/
def Command.layer : Command → LayerKind
  | .readPages _ _ _ _ => .ocr
  | .awaitProgress _ _ => .ocr
  | .openReply _ _ _ => .llm
  | .awaitChunk _ _ => .llm

/-- The step that a delivery is for. -/
def Delivery.layer? : Delivery → Option LayerKind
  | .progress _ _ => some .ocr
  | .replyOpened _ _ => some .llm
  | .chunk _ _ => some .llm
  | .key _ => none
  | .other _ => none

theorem Delivery.eq_key_of_owner?_eq_none {d : Delivery} (h : d.owner? = none) :
    ∃ k, d = .key k := by
  cases d with
  | key k => exact ⟨k, rfl⟩
  | progress owner p => cases h
  | replyOpened owner stream => cases h
  | chunk owner c => cases h
  | other owner => cases h

/-- The command that a turn gives. -/
def Turn.command? (t : Turn) : Option Command :=
  match t.outcome with
  | .ok c => c
  | .error _ => none

/-- A turn gives the work of a session at a step, and none when there is no
step. -/
def Turn.WorksOn (t : Turn) (number : Nat) : Option LayerKind → Prop
  | some k => ∃ c, t.command? = some c ∧ c.owner = number ∧ c.layer = k
  | none => t.command? = none

/-! ## Frames -/

/-- All that a turn at the open session leaves alone. -/
structure Workbench.Frames (w w' : Workbench) : Prop where
  client : w'.clientInUse = w.clientInUse
  opened : w'.opened = w.opened
  fired : w'.fired = w.fired

namespace Workbench

theorem Frames.rfl {w : Workbench} : w.Frames w := ⟨by rfl, by rfl, by rfl⟩

theorem Frames.trans {u v w : Workbench} (h : u.Frames v) (h' : v.Frames w) : u.Frames w :=
  ⟨h'.client.trans h.client, h'.opened.trans h.opened, h'.fired.trans h.fired⟩

/-- At most the open session and the records differ. -/
def Touches (w w' : Workbench) : Prop :=
  ∃ session records, w' = { w with session := session, records := records }

theorem Touches.rfl {w : Workbench} : w.Touches w := ⟨w.session, w.records, by rfl⟩

theorem Touches.trans {u v w : Workbench} (h : u.Touches v) (h' : v.Touches w) : u.Touches w := by
  obtain ⟨_, _, rfl⟩ := h
  obtain ⟨session, records, rfl⟩ := h'
  exact ⟨session, records, by rfl⟩

theorem Touches.frames {w w' : Workbench} (h : w.Touches w') : w.Frames w' := by
  obtain ⟨_, _, rfl⟩ := h
  exact ⟨by rfl, by rfl, by rfl⟩

theorem touches_withSession (w : Workbench) (s : Session) : w.Touches (w.withSession s) :=
  ⟨some s, w.records, rfl⟩

theorem touches_onSession (w : Workbench) (f : Session → Session) : w.Touches (w.onSession f) :=
  ⟨_, w.records, rfl⟩

theorem touches_note (w : Workbench) (source : Source) (level : Level) (text : String) :
    w.Touches (w.note source level text) := ⟨w.session, _, rfl⟩

theorem touches_knownEntities (w : Workbench) : w.Touches w.knownEntities.2 := by
  rw [knownEntities]
  split
  · exact Touches.rfl
  · split
    · exact Touches.rfl
    · exact touches_note _ _ _ _

theorem touches_remarks (texts : List String) (w : Workbench) :
    w.Touches (texts.foldl (fun w text => w.note .reply .debug text) w) := by
  induction texts generalizing w with
  | nil => exact Touches.rfl
  | cons text rest ih => exact (touches_note w _ _ text).trans (ih _)

theorem frames_withSession (w : Workbench) (s : Session) : w.Frames (w.withSession s) :=
  (touches_withSession w s).frames

theorem touches_startModel (w : Workbench) (now : Float) (client : ChatClient) (s : Session) :
    w.Touches (w.startModel now client s).bench :=
  (touches_knownEntities w).trans (touches_withSession _ _)

theorem touches_afterPages (w : Workbench) (now : Float) (s : Session) :
    w.Touches (w.afterPages now s).bench := by
  rw [afterPages]
  split
  · exact touches_startModel w now _ s
  · exact touches_withSession w _

theorem touches_onProgress (w : Workbench) (now : Float) (s : Session) (p : Progress) :
    w.Touches (w.onProgress now s p).bench := by
  rw [onProgress]
  split
  · exact touches_afterPages w now _
  · split
    · exact touches_afterPages w now _
    · exact touches_withSession w _

theorem touches_readReply (w : Workbench) (s : Session) : w.Touches (w.readReply s).bench := by
  have hremarks := touches_remarks (Reply.remarks s.replyText) w
  rw [readReply]
  cases Reply.read s.replyText with
  | ok hints => exact hremarks.trans (touches_withSession _ _)
  | error failure =>
    cases failure with
    | malformed m => exact hremarks.trans (touches_withSession _ _)
    | overflow => exact hremarks.trans (touches_withSession _ _)

theorem touches_onChunk (w : Workbench) (now : Float) (s : Session) (c : Chunk) :
    w.Touches (w.onChunk now s c).bench := by
  rw [onChunk]
  split
  · exact touches_withSession w _
  · show w.Touches (if c.done = true then _ else _ : Turn).bench
    split
    · exact touches_readReply w _
    · exact touches_withSession w _

theorem touches_rerun (w : Workbench) (now : Float) : w.Touches (w.rerun now).bench := by
  rw [rerun]
  split
  · split
    · exact touches_startModel w now _ _
    · exact Touches.rfl
  · exact Touches.rfl

/-- All keys but two change at most the open session. -/
theorem touches_onKey (w : Workbench) (now : Float) {k : Key} (haccept : k ≠ .accept)
    (hescape : k ≠ .escape) : w.Touches (w.onKey now k).bench := by
  unfold onKey
  split
  · exact absurd rfl hescape
  · exact touches_rerun w now
  · exact absurd rfl haccept
  · exact touches_onSession w _
  · exact touches_onSession w _
  · exact touches_onSession w _
  · exact Touches.rfl

theorem touches_take (w : Workbench) (now : Float) (s : Session) {d : Delivery}
    (haccept : d ≠ .key .accept) (hescape : d ≠ .key .escape) :
    w.Touches (w.take now s d).bench := by
  cases d with
  | progress owner p => exact touches_onProgress w now s p
  | replyOpened owner stream => exact touches_withSession w _
  | chunk owner c => exact touches_onChunk w now s c
  | key k =>
    exact touches_onKey w now (fun hk => haccept (congrArg Delivery.key hk))
      fun hk => hescape (congrArg Delivery.key hk)
  | other owner => exact Touches.rfl

end Workbench

/-! ## Turns -/

/-- A turn that closes the open session and gives no work. -/
structure Turn.Closes (t : Turn) (w : Workbench) (number : Nat) : Prop where
  opened : t.bench.opened = w.opened
  fired : ∀ n ∈ t.bench.fired, n ∈ w.fired ∨ n = number
  session : t.bench.session = none
  command : t.command? = none

/-- A turn that leaves the open session where it stands and gives no
work. -/
structure Turn.Leaves (t : Turn) (w : Workbench) (number : Nat) (k? : Option LayerKind) :
    Prop where
  frames : w.Frames t.bench
  session : ∃ s, t.bench.session = some s ∧ s.number = number ∧
    s.hasLlm = w.clientInUse.isSome ∧ s.Stands k?
  command : t.command? = none

/-- A turn that goes on with a session at the step it gives work for. -/
structure Turn.Continues (t : Turn) (w : Workbench) (number : Nat) : Prop where
  frames : w.Frames t.bench
  session : ∃ s k?, t.bench.session = some s ∧ s.number = number ∧
    s.hasLlm = w.clientInUse.isSome ∧ s.Stands k? ∧ t.WorksOn number k?

namespace Workbench

variable {w : Workbench} {s : Session}

theorem continues_startModel (h : s.Standing .lt .gt false) {client : ChatClient}
    (hclient : w.clientInUse = some client) (hs : s.hasLlm = true) (now : Float) :
    (w.startModel now client s).Continues w s.number := by
  have hmodel : s.hasLlm = w.clientInUse.isSome := by rw [hs, hclient, Option.isSome_some]
  exact ⟨(touches_startModel w now client s).frames, _, some .llm, rfl, rfl, hmodel,
    Session.standing_modelStarted h hs now w.modelLabel, _, rfl, rfl, rfl⟩

theorem continues_afterPages (h : s.Standing .lt .gt false)
    (hs : s.hasLlm = w.clientInUse.isSome) (now : Float) :
    (w.afterPages now s).Continues w s.number := by
  rw [afterPages]
  split
  · rename_i client hclient hllm
    exact continues_startModel h hclient hllm now
  · rename_i hnone
    have hllm : s.hasLlm = false := by
      cases hclient : w.clientInUse with
      | none => rw [hs, hclient, Option.isSome_none]
      | some client => exact Bool.eq_false_iff.2 fun hllm => hnone client hclient hllm
    exact ⟨frames_withSession w _, _, none, rfl, rfl, hs, Session.standing_finish h hllm, rfl⟩

theorem continues_onProgress (h : s.Stands (some .ocr))
    (hs : s.hasLlm = w.clientInUse.isSome) (now : Float) (p : Progress) :
    (w.onProgress now s p).Continues w s.number := by
  rw [onProgress]
  split
  · rename_i e he
    exact continues_afterPages (Session.standing_pagesFailed h now e) hs now
  · split
    · exact continues_afterPages (Session.standing_pagesRead h now _) hs now
    · exact ⟨frames_withSession w _, _, some .ocr, rfl, rfl, hs,
        Session.standing_pagesMoved h p, _, rfl, rfl, rfl⟩

/-- Reading the reply ends the session's work, unless a number is too large:
then the reading breaks off and the step stays as it is. -/
theorem readReply_cases (h : s.Stands (some .llm)) (hs : s.hasLlm = w.clientInUse.isSome) :
    (w.readReply s).Continues w s.number ∨
      ¬ Reply.Moderate s.replyText ∧ (w.readReply s).Leaves w s.number (some .llm) := by
  have hframes := (touches_remarks (Reply.remarks s.replyText) w).frames
  rw [readReply]
  cases hread : Reply.read s.replyText with
  | ok hints =>
    exact Or.inl ⟨hframes.trans (frames_withSession _ _), _, none, rfl, rfl, hs,
      Session.standing_replyRead h hints, rfl⟩
  | error failure =>
    cases failure with
    | malformed m =>
      exact Or.inl ⟨hframes.trans (frames_withSession _ _), _, none, rfl, rfl, hs,
        Session.standing_replyRefused h m, rfl⟩
    | overflow =>
      exact Or.inr ⟨fun hm => Reply.read_ne_overflow hm hread,
        hframes.trans (frames_withSession _ _), ⟨s, rfl, rfl, hs, h⟩, rfl⟩

theorem number_replyGrown (s : Session) (piece : String) :
    (s.replyGrown piece).number = s.number := by
  rw [Session.replyGrown]
  split
  · rfl
  · rfl

theorem hasLlm_replyGrown (s : Session) (piece : String) :
    (s.replyGrown piece).hasLlm = s.hasLlm := by
  rw [Session.replyGrown]
  split
  · rfl
  · rfl

theorem onChunk_cases (h : s.Stands (some .llm)) (hs : s.hasLlm = w.clientInUse.isSome)
    (now : Float) (c : Chunk) :
    (w.onChunk now s c).Continues w s.number ∨
      (c.fault = none ∧ c.done = true ∧ ¬ Reply.Moderate (s.replyGrown c.text).replyText) ∧
        (w.onChunk now s c).Leaves w s.number (some .llm) := by
  have hgrown : (s.replyGrown c.text).Stands (some .llm) :=
    Session.standing_replyGrown h c.text
  have hs' : (s.replyGrown c.text).hasLlm = w.clientInUse.isSome := by
    rw [hasLlm_replyGrown, hs]
  rw [onChunk]
  split
  · rename_i e he
    exact Or.inl ⟨frames_withSession w _, _, none, rfl, rfl, hs,
      Session.standing_replyFailed h now e, rfl⟩
  · rename_i hfault
    rw [← number_replyGrown s c.text]
    show (if c.done = true then _ else _ : Turn).Continues w _ ∨
      _ ∧ (if c.done = true then _ else _ : Turn).Leaves w _ _
    split
    · rename_i hdone
      exact (readReply_cases (s := (s.replyGrown c.text).replyEnded now)
        (Session.standing_replyEnded hgrown now) hs').imp_right fun ⟨hm, hleaves⟩ =>
          ⟨⟨hfault, hdone, hm⟩, hleaves⟩
    · exact Or.inl ⟨frames_withSession w _, _, some .llm, rfl, rfl, hs', hgrown, _, rfl, rfl, rfl⟩

/-! ## Keys -/

theorem leaves_self (hw : w.session = some s) (h : s.Stands k?)
    (hs : s.hasLlm = w.clientInUse.isSome) {outcome : Except Fault (Option Command)}
    (ho : Turn.command? ⟨w, outcome⟩ = none) : Turn.Leaves ⟨w, outcome⟩ w s.number k? :=
  ⟨Frames.rfl, ⟨s, hw, rfl, hs, h⟩, ho⟩

theorem closes_cancel (hw : w.session = some s) :
    Turn.Closes ⟨w.cancel, .ok none⟩ w s.number := by
  have hcancel : w.cancel = { w with
      session := none
      fired := w.fired ++ [s.number]
      closings := w.closings ++ s.reply.toList } := by
    rw [cancel, hw]
  refine ⟨?_, ?_, ?_, rfl⟩
  · rw [hcancel]
  · intro n hn
    rw [hcancel] at hn
    simpa using hn
  · rw [hcancel]

/-- A key that changes the view of a session. -/
theorem leaves_onSession (hw : w.session = some s) {f : Session → Session}
    (hnumber : (f s).number = s.number) (hs : (f s).hasLlm = w.clientInUse.isSome)
    (h : (f s).Stands k?) : Turn.Leaves ⟨w.onSession f, .ok none⟩ w s.number k? :=
  ⟨⟨rfl, rfl, rfl⟩, ⟨f s, by simp [onSession, hw], hnumber, hs, h⟩, rfl⟩

/-- Saving the results closes the session, or leaves it as it is. -/
theorem accept_cases (hw : w.session = some s) (h : s.Stands k?)
    (hs : s.hasLlm = w.clientInUse.isSome) :
    Turn.Closes ⟨w.accept.1, w.accept.2.map fun _ => none⟩ w s.number ∨
      Turn.Leaves ⟨w.accept.1, w.accept.2.map fun _ => none⟩ w s.number k? := by
  rw [accept, hw]
  dsimp only
  split
  · exact Or.inr (leaves_self hw h hs rfl)
  · split
    · exact Or.inl ⟨rfl, fun n hn => Or.inl hn, rfl, rfl⟩
    · rename_i store hstore
      split
      · exact Or.inl ⟨rfl, fun n hn => Or.inl hn, rfl, rfl⟩
      · split
        · exact Or.inr ⟨⟨rfl, rfl, rfl⟩, ⟨s, rfl, rfl, hs, h⟩, rfl⟩
        · exact Or.inr ⟨⟨rfl, rfl, rfl⟩, ⟨s, rfl, rfl, hs, h⟩, rfl⟩

/-- The model is asked again only when the session is done. -/
theorem rerun_cases (hw : w.session = some s) (h : s.Stands k?)
    (hs : s.hasLlm = w.clientInUse.isSome) (now : Float) :
    (w.rerun now).Leaves w s.number k? ∨ k? = none ∧ (w.rerun now).Continues w s.number := by
  rw [rerun, hw]
  split
  · rename_i s' client hs' hclient
    obtain rfl : s = s' := Option.some.inj hs'
    split
    · rename_i hrerun
      simp only [canRerun, Bool.and_eq_true, decide_eq_true_eq] at hrerun
      have hdone : k? = none := Session.eq_none_of_done h hrerun.1.1
      subst hdone
      exact Or.inr ⟨rfl, continues_startModel (Session.standing_modelReset h) hclient
        hrerun.1.2 now⟩
    · exact Or.inl (leaves_self hw h hs rfl)
  · exact Or.inl (leaves_self hw h hs rfl)

theorem onKey_cases (hw : w.session = some s) (h : s.Stands k?)
    (hs : s.hasLlm = w.clientInUse.isSome) (now : Float) (k : Key) :
    (w.onKey now k).Closes w s.number ∨ (w.onKey now k).Leaves w s.number k? ∨
      k? = none ∧ (w.onKey now k).Continues w s.number := by
  unfold onKey
  rw [hw]
  cases k with
  | escape => exact Or.inl (closes_cancel hw)
  | rerun => exact Or.inr (rerun_cases hw h hs now)
  | accept => exact (accept_cases hw h hs).imp_right Or.inl
  | down =>
    exact Or.inr (Or.inl (leaves_onSession hw rfl hs (Session.stands_moveBy h 1)))
  | up =>
    exact Or.inr (Or.inl (leaves_onSession hw rfl hs (Session.stands_moveBy h (-1))))
  | enter => exact Or.inr (Or.inl (leaves_onSession hw rfl hs (Session.stands_toggle h)))
  | other => exact Or.inr (Or.inl (leaves_self hw h hs rfl))

/-! ## Deliveries -/

/-- A delivery ends no reply, or ends one without a number too large to be
rounded. -/
def Tame (w : Workbench) (d : Delivery) : Prop :=
  ∀ s c, w.session = some s → d = .chunk s.number c → c.fault = none → c.done = true →
    Reply.Moderate (s.replyGrown c.text).replyText

/-- What is delivered for the step at which the open session works goes on
with the session.  Only the end of a reply with a number too large leaves it
where it stands. -/
theorem take_cases (hw : w.session = some s) {k : LayerKind} (h : s.Stands (some k))
    (hs : s.hasLlm = w.clientInUse.isSome) {d : Delivery} (hd : d.owner? = some s.number)
    (hk : d.layer? = some k) (now : Float) :
    (w.take now s d).Continues w s.number ∨
      ¬ w.Tame d ∧ (w.take now s d).Leaves w s.number (some k) := by
  cases d with
  | progress owner p =>
    obtain rfl : LayerKind.ocr = k := Option.some.inj hk
    exact Or.inl (continues_onProgress h hs now p)
  | replyOpened owner stream =>
    obtain rfl : LayerKind.llm = k := Option.some.inj hk
    exact Or.inl ⟨frames_withSession w _, _, some .llm, rfl, rfl, hs,
      Session.standing_setReply h (some stream), _, rfl, rfl, rfl⟩
  | chunk owner c =>
    obtain rfl : LayerKind.llm = k := Option.some.inj hk
    obtain rfl : owner = s.number := Option.some.inj hd
    exact (onChunk_cases h hs now c).imp_right fun ⟨⟨hfault, hdone, hm⟩, hleaves⟩ =>
      ⟨fun htame => hm (htame s c hw rfl hfault hdone), hleaves⟩
  | key k' => cases hd
  | other owner => cases hk

theorem handle_of_owner (hw : w.session = some s) {d : Delivery} (hd : d.owner? = some s.number)
    (now : Float) : w.handle now d = w.take now s d := by
  unfold handle
  rw [hd, hw]
  exact if_pos rfl

theorem handle_key_of_some (hw : w.session = some s) (now : Float) (k : Key) :
    w.handle now (.key k) = w.onKey now k := by
  unfold handle
  rw [hw]
  rfl

theorem handle_key_of_none (hw : w.session = none) (now : Float) (k : Key) :
    w.handle now (.key k) = ⟨w, .ok none⟩ := by
  unfold handle
  rw [hw]
  rfl

/-- What is handled is taken by the open session, or dropped. -/
theorem handle_cases (w : Workbench) (now : Float) (d : Delivery) :
    (∃ s, w.session = some s ∧ w.handle now d = w.take now s d) ∨
      w.handle now d = ⟨w.drop d, .ok none⟩ := by
  cases howner : d.owner? with
  | none =>
    obtain ⟨k, rfl⟩ := Delivery.eq_key_of_owner?_eq_none howner
    cases hs : w.session with
    | none => exact Or.inr (handle_key_of_none hs now k)
    | some s => exact Or.inl ⟨s, rfl, handle_key_of_some hs now k⟩
  | some owner =>
    by_cases hopen : ∀ s ∈ w.session, s.number ≠ owner
    · exact Or.inr (handle_of_not_owner now howner hopen)
    · simp only [not_forall, not_not] at hopen
      obtain ⟨s, hs, rfl⟩ := hopen
      exact Or.inl ⟨s, hs, handle_of_owner hs howner now⟩

/-- What is dropped changes nothing that a session depends on. -/
theorem drop_frames (w : Workbench) (d : Delivery) :
    w.Frames (w.drop d) ∧ (w.drop d).session = w.session := by
  cases d with
  | replyOpened owner stream => exact ⟨⟨rfl, rfl, rfl⟩, rfl⟩
  | _ => exact ⟨Frames.rfl, rfl⟩

/-! ## Sessions -/

theorem frames_cancel (w : Workbench) :
    w.cancel.clientInUse = w.clientInUse ∧ w.cancel.opened = w.opened ∧
      w.cancel.session = none ∧
      ∀ n ∈ w.cancel.fired, n ∈ w.fired ∨ ∃ s, w.session = some s ∧ n = s.number := by
  rw [cancel]
  split
  · rename_i hw
    exact ⟨rfl, rfl, hw, fun n hn => Or.inl hn⟩
  · rename_i s hw
    refine ⟨rfl, rfl, rfl, fun n hn => ?_⟩
    simp only [List.mem_append, List.mem_singleton] at hn
    exact hn.imp_right fun hn => ⟨s, hw, hn⟩

/-- The workbench for which a session is begun: the one before it is
cancelled and the new one is counted. -/
def begun (w : Workbench) : Workbench :=
  { w.cancel with opened := w.opened + 1, statusError := "" }

/-- The text of a new session is there from the start, where its step
applies. -/
theorem newSession_text (w : Workbench) (document : Int) (filename : String)
    (data : Text.Utf8.Bytes) (mime text : String) :
    (w.newSession document filename data mime text).text.status =
      if (w.newSession document filename data mime text).hasText then .done else .pending := by
  show (if (! Mime.isImage mime) = true then StepInfo.ofText mime text else {}).status = _
  show _ = if (! Mime.isImage mime) = true then _ else _
  split
  · rfl
  · rfl

/-- A session with a step to run has a step under its cursor. -/
theorem newSession_cursor (w : Workbench) (document : Int) (filename : String)
    (data : Text.Utf8.Bytes) (mime text : String) {k : LayerKind}
    (hk : (w.newSession document filename data mime text).applies k = true) :
    0 ≤ (w.newSession document filename data mime text).cursor ∧
      (w.newSession document filename data mime text).cursor <
        (w.newSession document filename data mime text).active.length := by
  have hmem := (Session.mem_active_iff _ k).2 hk
  have hpos := List.length_pos_of_mem hmem
  refine ⟨le_refl 0, ?_⟩
  show (0 : Int) < _
  exact_mod_cast hpos

/-- Opening a document closes the session before it, and begins a session
when there is a step to run in the background. -/
theorem open_cases (w : Workbench) (now : Float) (document : Int) (filename : String)
    (data : Text.Utf8.Bytes) (mime text : String) :
    (w.cancel.Frames (w.open now document filename data mime text).bench ∧
      (w.open now document filename data mime text).bench.session = none ∧
      (w.open now document filename data mime text).command? = none) ∨
    (w.open now document filename data mime text).Continues w.begun (w.opened + 1) := by
  obtain ⟨hclient, -, hsession, -⟩ := frames_cancel w
  have htext := newSession_text w document filename data mime text
  rw [Workbench.open]
  split
  · rename_i hocr
    have hcursor := newSession_cursor w document filename data mime text (k := .ocr) hocr
    refine Or.inr ⟨frames_withSession w.begun _, _, some .ocr, rfl, rfl, ?_, ?_, _, rfl, rfl, rfl⟩
    · show w.clientInUse.isSome = w.cancel.clientInUse.isSome
      rw [hclient]
    · exact ⟨htext, ⟨hocr, rfl⟩, rfl, rfl, by simp [newSession, StepInfo.start],
        by simp [newSession], fun _ => ⟨rfl, rfl⟩, hcursor⟩
  · rename_i client hocr hsome
    have hsome' : w.clientInUse = some client := by rw [← hclient, hsome]
    have hllm : (w.newSession document filename data mime text).hasLlm = true := by
      show w.clientInUse.isSome = true
      rw [hsome', Option.isSome_some]
    have hcursor := newSession_cursor w document filename data mime text (k := .llm) hllm
    have hstanding :
        (w.newSession document filename data mime text).Standing .lt .gt false := by
      refine ⟨htext, ?_, rfl, rfl, by simp [newSession], by simp [newSession],
        fun _ => ⟨rfl, rfl⟩, hcursor⟩
      rw [hocr]
      rfl
    exact Or.inr (continues_startModel (w := w.begun) hstanding hsome hllm now)
  · exact Or.inl ⟨(touches_note _ _ _ _).frames, hsession, rfl⟩

end Workbench
end Intake
