import Intake.Proofs.Session.Afresh

/-!
# The view of a session

Keys move the cursor and open and close steps.  A question to the model takes
back what was chosen for its step, and a step opens by itself as it gets on.

There are three groups.

* Views.  `Session.seen` is what a key does to the view of a session, and
  `Session.LooksLike` says that two sessions show and hide the same steps.
* Looking.  `Entry.looks` are the keys of a chronicle that change the view;
  `looksLike_move` says that nothing else does unless the model is asked.
* Bases.  `Session.basis` is a session without what its model has brought, with
  its view; `basis_move` says that nothing but such keys changes it.
-/

namespace Intake

/-! ## Views -/

namespace Session

/-- A session after a key that changes its view. -/
def seen (s : Session) : Key → Session
  | .down => s.moveBy 1
  | .up => s.moveBy (-1)
  | .enter => s.toggle
  | _ => s

/-- A session after keys that change its view. -/
def looked (s : Session) (keys : List Key) : Session := keys.foldl seen s

/-- Two sessions have the same cursor and the same steps open, and keys will
change both alike. -/
structure LooksLike (s s' : Session) : Prop where
  cursor : s'.cursor = s.cursor
  chosen : s'.chosen = s.chosen
  applies : s'.applies = s.applies
  opens (k : LayerKind) : opensItself k (s'.info k).status = opensItself k (s.info k).status

variable {s s' s'' : Session}

theorem LooksLike.rfl : s.LooksLike s := ⟨by rfl, by rfl, by rfl, fun _ => by rfl⟩

theorem LooksLike.symm (h : s.LooksLike s') : s'.LooksLike s :=
  ⟨h.cursor.symm, h.chosen.symm, h.applies.symm, fun k => (h.opens k).symm⟩

theorem LooksLike.trans (h : s.LooksLike s') (h' : s'.LooksLike s'') : s.LooksLike s'' :=
  ⟨h'.cursor.trans h.cursor, h'.chosen.trans h.chosen, h'.applies.trans h.applies,
    fun k => (h'.opens k).trans (h.opens k)⟩

theorem LooksLike.isExpanded (h : s.LooksLike s') (k : LayerKind) :
    s'.isExpanded k = s.isExpanded k := by
  rw [Session.isExpanded, Session.isExpanded, h.chosen, h.opens]

theorem LooksLike.moveBy (h : s.LooksLike s') (by_ : Int) :
    (s.moveBy by_).LooksLike (s'.moveBy by_) := by
  refine ⟨?_, h.chosen, h.applies, h.opens⟩
  have hactive : s'.active = s.active := congrArg LayerKind.all.filter h.applies
  rw [Session.moveBy, Session.moveBy, h.cursor, hactive]

theorem LooksLike.toggle (h : s.LooksLike s') : s.toggle.LooksLike s'.toggle := by
  refine ⟨h.cursor, ?_, h.applies, h.opens⟩
  have hactive : s'.active = s.active := congrArg LayerKind.all.filter h.applies
  have hstep : s'.cursorStep = s.cursorStep := by
    rw [cursorStep, cursorStep, h.cursor, hactive]
  rw [Session.toggle, Session.toggle, hstep, h.isExpanded, choose, choose, h.chosen]

theorem LooksLike.seen (h : s.LooksLike s') (k : Key) : (s.seen k).LooksLike (s'.seen k) := by
  cases k with
  | down => exact h.moveBy 1
  | up => exact h.moveBy (-1)
  | enter => exact h.toggle
  | _ => exact h

theorem LooksLike.looked (h : s.LooksLike s') (keys : List Key) :
    (s.looked keys).LooksLike (s'.looked keys) := by
  induction keys generalizing s s' with
  | nil => exact h
  | cons k keys ih => exact ih (h.seen k)

theorem looked_append (s : Session) (keys more : List Key) :
    s.looked (keys ++ more) = (s.looked keys).looked more := List.foldl_append

/-- Keys that change the view change nothing else. -/
theorem looked_eq (s : Session) (keys : List Key) :
    ∃ cursor chosen, s.looked keys = { s with cursor := cursor, chosen := chosen } := by
  induction keys generalizing s with
  | nil => exact ⟨s.cursor, s.chosen, rfl⟩
  | cons k keys ih =>
    have hseen : ∃ cursor chosen, s.seen k = { s with cursor := cursor, chosen := chosen } := by
      cases k with
      | _ => exact ⟨_, _, rfl⟩
    obtain ⟨_, _, hseen⟩ := hseen
    obtain ⟨cursor, chosen, hlooked⟩ := ih (s.seen k)
    refine ⟨cursor, chosen, ?_⟩
    rw [looked, List.foldl_cons, ← looked, hlooked, hseen]

theorem info_looked (s : Session) (keys : List Key) : (s.looked keys).info = s.info := by
  obtain ⟨_, _, hlooked⟩ := looked_eq s keys
  rw [hlooked]
  funext k
  cases k with
  | _ => rfl

theorem applies_looked (s : Session) (keys : List Key) :
    (s.looked keys).applies = s.applies := by
  obtain ⟨_, _, hlooked⟩ := looked_eq s keys
  rw [hlooked]
  funext k
  cases k with
  | _ => rfl

theorem ground_looked (s : Session) (keys : List Key) : (s.looked keys).ground = s.ground := by
  obtain ⟨_, _, hlooked⟩ := looked_eq s keys
  rw [hlooked]
  rfl

/-- Once the model was asked, its step shows its lines by itself. -/
theorem opensItself_llm {t : StepStatus} (h : t ≠ .pending) : opensItself .llm t = true := by
  cases t with
  | pending => exact absurd rfl h
  | _ => rfl

end Session

/-! ## Looking -/

namespace Entry

/-- The key that changes the view of the open session, if an entry tells of
one. -/
def look? (e : Entry) : Option Key :=
  match e.what with
  | .handles (.key .down) => some .down
  | .handles (.key .up) => some .up
  | .handles (.key .enter) => some .enter
  | _ => none

/-- The keys that changed the view of the open session. -/
def looks (h : List Entry) : List Key := h.filterMap look?

theorem looks_append (h : List Entry) (e : Entry) : looks (h ++ [e]) = looks h ++ e.look?.toList :=
  filterMap_snoc look? h e

/-- Of the questions to a model one is the first. -/
theorem exists_first_ask {number : Nat} {h : List Entry} {cs : List Chunk}
    (hreply : latestReply number h = some cs) : ∃ earlier ask later,
      h = earlier ++ ask :: later ∧ ask.asks number ∧ ∀ e ∈ earlier, ¬ e.asks number := by
  obtain ⟨_, e, _, hsplit, hasks, -⟩ := split_of_latestReply hreply
  have hfound : (h.find? fun e => e.command.any (·.asks number)).isSome = true :=
    List.find?_isSome.2 ⟨e, by simp [hsplit], hasks⟩
  obtain ⟨ask, hfind⟩ := Option.isSome_iff_exists.1 hfound
  obtain ⟨hask, earlier, later, hentries, hearlier⟩ := List.find?_eq_some_iff_append.1 hfind
  refine ⟨earlier, ask, later, hentries, hask, fun e he hasks => ?_⟩
  have hnot := hearlier e he
  rw [show e.command.any (·.asks number) = true from hasks] at hnot
  exact Bool.noConfusion hnot

theorem look?_of_isRerun {e : Entry} (h : e.what.IsRerun) : e.look? = none := by
  rw [look?]
  rcases h with hwhat | hwhat
  · rw [hwhat]
  · rw [hwhat]

end Entry

namespace Session

variable {s s' : Session} {e : Entry}

theorem GoesOn.view {command : Option Command} (h : s.GoesOn command s') :
    s'.cursor = s.cursor ∧ s'.chosen = s.chosen := by
  cases h with
  | asks => exact ⟨rfl, rfl⟩
  | finishes => exact ⟨rfl, rfl⟩

/-- What is heard for a session changes nothing about its view. -/
theorem Change.view_of_heard (h : s.Change e s') {d : Delivery} (hwhat : e.what = .handles d)
    (howner : d.owner? = some s.number) : s'.cursor = s.cursor ∧ s'.chosen = s.chosen := by
  have hgrown : ∀ piece, (s.replyGrown piece).cursor = s.cursor ∧
      (s.replyGrown piece).chosen = s.chosen := by
    intro piece
    obtain ⟨received, logs, hgrown, -⟩ := Workbench.replyGrown_eq s piece
    rw [hgrown]
    exact ⟨rfl, rfl⟩
  cases h with
  | views progress cursor chosen hunheard =>
    refine absurd howner (hunheard d ?_)
    rw [Entry.heard?, hwhat]
  | pagesMoved => exact ⟨rfl, rfl⟩
  | pagesFailed now _ _ _ hnext => exact hnext.view
  | pagesRead now _ _ _ _ hnext => exact hnext.view
  | replyOpened => exact ⟨rfl, rfl⟩
  | @replyGrown c => exact hgrown c.text
  | replyFailed => exact ⟨rfl, rfl⟩
  | @replyEnded c _ now _ _ _ _ _ hread =>
    cases hread with
    | _ => exact hgrown c.text
  | reruns _ _ _ _ _ _ hrerun =>
    rcases hrerun with hrerun | hrerun
    · cases hwhat.symm.trans hrerun
    · cases hwhat.symm.trans hrerun
      cases howner

end Session

namespace Workbench

variable {w : Workbench} {s s' : Session}

/-- A key that is no rerun moves the cursor, opens or closes a step, or does
nothing to the view. -/
theorem view_onKey (hs : w.session = some s) (now : Float) {k : Key} (hk : k ≠ .rerun)
    (hs' : (w.onKey now k).bench.session = some s') {e : Entry}
    (hwhat : e.what = .handles (.key k)) :
    s'.cursor = (s.looked e.look?.toList).cursor ∧
      s'.chosen = (s.looked e.look?.toList).chosen := by
  have hview : ∀ f : Session → Session, (w.onSession f).session = some (f s) := by
    intro f
    rw [onSession, hs]
    rfl
  rw [Entry.look?, hwhat]
  unfold onKey at hs'
  rw [hs] at hs'
  cases k with
  | rerun => exact absurd rfl hk
  | escape => cases (frames_cancel w).2.2.1.symm.trans hs'
  | accept =>
    rcases session_accept w with hnone | hsame
    · cases hnone.symm.trans hs'
    · obtain rfl : s = s' := Option.some.inj (hs.symm.trans (hsame.symm.trans hs'))
      exact ⟨rfl, rfl⟩
  | down =>
    obtain rfl : s.moveBy 1 = s' := Option.some.inj ((hview _).symm.trans hs')
    exact ⟨rfl, rfl⟩
  | up =>
    obtain rfl : s.moveBy (-1) = s' := Option.some.inj ((hview _).symm.trans hs')
    exact ⟨rfl, rfl⟩
  | enter =>
    obtain rfl : s.toggle = s' := Option.some.inj ((hview _).symm.trans hs')
    exact ⟨rfl, rfl⟩
  | other =>
    obtain rfl : s = s' := Option.some.inj (hs.symm.trans hs')
    exact ⟨rfl, rfl⟩

end Workbench

namespace Office

variable {o o' : Office} {s s' : Session} {h later : List Entry} {e : Entry}

theorem change_of_number (hsound : o.Sound False) (hmove : Move o e o')
    (hs : o.bench.session = some s) (hs' : o'.bench.session = some s')
    (hnumber : s'.number = s.number) : s.Change e s' := by
  rcases change_of_move hsound hmove hs' with ⟨hnew, -⟩ | ⟨s₁, hs₁, hchange⟩
  · have hle := (hsound.session s hs).number_le
    omega
  · obtain rfl : s = s₁ := Option.some.inj (hs.symm.trans hs₁)
    exact hchange

/-- A session that is open at two times is open between them. -/
theorem exists_session_before (hrecorded : o.Recorded h) {o₁ : Office}
    (hrun : Chronicle o later o₁) (hmove : Move o₁ e o') (hs : o.bench.session = some s)
    (hs' : o'.bench.session = some s') (hnumber : s'.number = s.number) :
    ∃ s₁, o₁.bench.session = some s₁ ∧ s₁.number = s.number := by
  rcases change_of_move (recorded_append hrecorded hrun).sound hmove hs' with
    ⟨hnew, -⟩ | ⟨s₁, hs₁, hchange⟩
  · have hle := (hrecorded.sound.session s hs).number_le
    have hopened := opened_le_of_chronicle hrun
    omega
  · exact ⟨s₁, hs₁, hchange.number.symm.trans hnumber⟩

/-- A rerun that does not ask changes nothing. -/
theorem session_of_rerun (hs : o.bench.session = some s) (hs' : o'.bench.session = some s')
    (hmove : Move o e o') (hrerun : e.what.IsRerun) (hasks : ¬ e.asks s.number) : s' = s := by
  obtain ⟨now, hbench, hcommand⟩ := bench_of_rerun hmove hrerun
  rcases Workbench.rerun_eq hs now with ⟨client, -, -, hturn⟩ | hturn
  · rw [hturn] at hcommand
    exact absurd (asks_of_command hcommand) hasks
  · rw [hbench, hturn] at hs'
    exact Option.some.inj (hs'.symm.trans hs)

/-- Opening another document keeps the open session, or begins a new one. -/
theorem session_of_opens (hsound : o.Sound False) {a : Workshop}
    {work : StateM Workshop (Except Fault (Option Command))} (hwork : Workshop.Opens work)
    (hbench : a.bench = o.bench) (hs : o.bench.session = some s)
    (hs' : (a.turnOf work).bench.session = some s') (hnumber : s'.number = s.number) :
    s' = s := by
  obtain ⟨w, hprepares, hturn⟩ := Workshop.opens_cases hwork a
  rw [hbench] at hprepares
  rcases hturn with ⟨f, hturn⟩ | ⟨now, document, filename, data, mime, text, hturn⟩
  · obtain ⟨_, _, rfl⟩ := hprepares
    rw [hturn] at hs'
    exact Option.some.inj (hs'.symm.trans hs)
  · rw [hturn] at hs'
    have hnew := (Workbench.begins_open hs').number
    have hle := (hsound.session s hs).number_le
    have hopened := hprepares.spares.opened
    omega

/-- What is heard changes the view of a session only if it is a key. -/
theorem view_handle (hsound : o.Sound False) {i : Nat} {d : Delivery} (now : Float)
    (hd : o.loop.queue[i]? = some d) (hs : o.bench.session = some s)
    (hs' : (o.bench.handle now d).bench.session = some s') (hrerun : d ≠ .key .rerun)
    (hwhat : e.what = .handles d) :
    s'.cursor = (s.looked e.look?.toList).cursor ∧
      s'.chosen = (s.looked e.look?.toList).chosen := by
  cases howner : d.owner? with
  | none =>
    obtain ⟨k, rfl⟩ := Delivery.eq_key_of_owner?_eq_none howner
    refine Workbench.view_onKey hs now (fun hk => hrerun (congrArg _ hk)) ?_ hwhat
    rw [← Workbench.handle_key_of_some hs]
    exact hs'
  | some owner =>
    have hlook : e.look? = none := by
      rw [Entry.look?, hwhat]
      cases d with
      | key k => cases howner
      | _ => rfl
    rw [hlook]
    -- What belongs to another session is dropped.
    by_cases hmine : s.number = owner
    · subst hmine
      obtain ⟨s₁, hs₁, hchange⟩ :=
        change_of_move_ne hsound (.handles now hd) Happening.noConfusion hs'
      obtain rfl : s = s₁ := Option.some.inj (hs.symm.trans hs₁)
      exact hchange.view_of_heard rfl howner
    · have hforeign : ∀ x ∈ o.bench.session, x.number ≠ owner := by
        intro x hx
        obtain rfl : s = x := Option.some.inj (hs.symm.trans hx)
        exact hmine
      rw [Workbench.handle_of_not_owner now howner hforeign] at hs'
      have hkept := (Workbench.drop_frames o.bench d).2.trans hs
      obtain rfl : s' = s := Option.some.inj (hs'.symm.trans hkept)
      exact ⟨rfl, rfl⟩

/-- Only keys change the view of a session, unless its model is asked. -/
theorem view_move (hsound : o.Sound False) (hmove : Move o e o') (hs : o.bench.session = some s)
    (hs' : o'.bench.session = some s') (hnumber : s'.number = s.number)
    (hasks : ¬ e.asks s.number) :
    s'.cursor = (s.looked e.look?.toList).cursor ∧
      s'.chosen = (s.looked e.look?.toList).chosen := by
  have hsame : s' = s → e.look? = none → s'.cursor = (s.looked e.look?.toList).cursor ∧
      s'.chosen = (s.looked e.look?.toList).chosen := by
    rintro rfl hnone
    rw [hnone]
    exact ⟨rfl, rfl⟩
  by_cases hrerun : e.what.IsRerun
  · exact hsame (session_of_rerun hs hs' hmove hrerun hasks) (Entry.look?_of_isRerun hrerun)
  · cases hmove with
    | opens a hwork hbench => exact hsame (session_of_opens hsound hwork hbench hs hs' hnumber) rfl
    | reruns now => exact absurd (Or.inl rfl) hrerun
    | cancels => cases (Workbench.frames_cancel o.bench).2.2.1.symm.trans hs'
    | accepts =>
      rcases Workbench.session_accept o.bench with hnone | hkept
      · cases hnone.symm.trans hs'
      · exact hsame (Option.some.inj (hs'.symm.trans (hkept.trans hs))) rfl
    | presses k => exact hsame (Option.some.inj (hs'.symm.trans hs)) rfl
    | @carries i task a htask hbench =>
      rcases bench_carry hbench i task with hcarry | ⟨owner, stream, hcarry⟩
      · rw [hcarry] at hs'
        exact hsame (Option.some.inj (hs'.symm.trans hs)) rfl
      · rw [hcarry, Workbench.onSession, hs, Option.map_some] at hs'
        obtain rfl := Option.some.inj hs'
        rw [Workshop.informed]
        split
        · exact ⟨rfl, rfl⟩
        · exact ⟨rfl, rfl⟩
    | handles now hd =>
      refine view_handle hsound now hd hs hs' (fun hkey => hrerun (Or.inr ?_)) rfl
      rw [hkey]

/-- Once the model was asked, nothing but keys changes which steps are open,
until it is asked again. -/
theorem looksLike_move (hsound : o.Sound False) (hmove : Move o e o')
    (hs : o.bench.session = some s) (hs' : o'.bench.session = some s')
    (hnumber : s'.number = s.number) (hocr : s.ocr.status ≠ .running)
    (hllm : s.llm.status ≠ .pending) (hasks : ¬ e.asks s.number) :
    (s.looked e.look?.toList).LooksLike s' := by
  obtain ⟨hcursor, hchosen⟩ := view_move hsound hmove hs hs' hnumber hasks
  have hchange := change_of_number hsound hmove hs hs' hnumber
  refine ⟨hcursor, hchosen, hchange.applies.trans ?_, fun k => ?_⟩
  · exact (Session.applies_looked s _).symm
  · rw [Session.info_looked]
    cases k with
    | text => exact congrArg (Session.opensItself .text ·.status) hchange.text
    | ocr =>
      exact congrArg (Session.opensItself .ocr ·.status) (hchange.ocr_of_ne_running hocr)
    | llm =>
      exact (Session.opensItself_llm (hchange.ne_pending hllm)).trans
        (Session.opensItself_llm hllm).symm

theorem looksLike_of_chronicle (hrecorded : o.Recorded h) (hrun : Chronicle o later o')
    (hs : o.bench.session = some s) (hs' : o'.bench.session = some s')
    (hnumber : s'.number = s.number) (hocr : s.ocr.status ≠ .running)
    (hllm : s.llm.status ≠ .pending) (hasks : ∀ e ∈ later, ¬ e.asks s.number) :
    (s.looked (Entry.looks later)).LooksLike s' := by
  induction hrun generalizing s' with
  | nil =>
    obtain rfl : s = s' := Option.some.inj (hs.symm.trans hs')
    exact .rfl
  | @snoc later e o₁ o₂ hrun hmove ih =>
    obtain ⟨hearlier, hlast⟩ := List.forall_mem_append.1 hasks
    obtain ⟨s₁, hs₁, hn⟩ := exists_session_before hrecorded hrun hmove hs hs' hnumber
    have hcourse := course_of_chronicle hrecorded hs hrun hs₁ hn
    rw [Entry.looks_append, Session.looked_append]
    refine ((ih hs₁ hn hearlier).looked _).trans ?_
    refine looksLike_move (recorded_append hrecorded hrun).sound hmove hs₁ hs'
      (hnumber.trans hn.symm) ?_ (hcourse.ne_pending hllm) ?_
    · rw [hcourse.ocr_of_ne_running hocr]
      exact hocr
    · rw [hn]
      exact hlast _ (List.mem_singleton_self _)

end Office

/-! ## Bases -/

namespace Session

variable {s s' : Session}

/-- The choices made by hand but for that of the model's step. -/
def chosenElsewhere (s : Session) : List (LayerKind × Bool) := s.chosen.filter (·.1 != .llm)

/-- A session without what its model has brought, with its view. -/
def basis (s : Session) : Session :=
  { s.ground with cursor := s.cursor, chosen := s.chosenElsewhere }

theorem basis_congr (hground : s'.ground = s.ground) (hcursor : s'.cursor = s.cursor)
    (hchosen : s'.chosenElsewhere = s.chosenElsewhere) : s'.basis = s.basis := by
  rw [basis, basis, hground, hcursor, hchosen]

theorem ground_of_basis (h : s'.basis = s.basis) : s'.ground = s.ground :=
  congrArg (fun t : Session => { t with cursor := 0, chosen := [] }) h

theorem status_of_ground (h : s'.ground = s.ground) {k : LayerKind} (hk : k ≠ .llm) :
    (s'.info k).status = (s.info k).status := by
  cases k with
  | text => exact (congrArg (·.text.status) h :)
  | ocr => exact (congrArg (·.ocr.status) h :)
  | llm => exact absurd rfl hk

theorem chosenElsewhere_of_basis (h : s'.basis = s.basis) :
    s'.chosenElsewhere = s.chosenElsewhere :=
  (congrArg Session.chosen h :)

theorem chosenElsewhere_modelReset (s : Session) :
    s.modelReset.chosenElsewhere = s.chosenElsewhere := by
  show (s.chosen.filter _).filter _ = s.chosen.filter _
  rw [List.filter_filter]
  simp only [Bool.and_self]

/-- A choice elsewhere is found among those elsewhere. -/
theorem lookup_chosenElsewhere {k : LayerKind} (hk : k ≠ .llm) :
    s.chosenElsewhere.lookup k = s.chosen.lookup k := by
  rw [chosenElsewhere]
  induction s.chosen with
  | nil => rfl
  | cons c rest ih =>
    by_cases hc : c.1 = .llm
    · have hother : (k == c.1) = false := beq_eq_false_iff_ne.2 (hc ▸ hk)
      rw [List.filter_cons_of_neg (by simp [hc]), ih, List.lookup_cons, hother]
    · rw [List.filter_cons_of_pos (by simp [hc]), List.lookup_cons, List.lookup_cons, ih]

/-- Choosing keeps the steps that choices are for. -/
theorem filter_chosen (chosen : List (LayerKind × Bool)) (k : LayerKind) (shown : Bool) :
    (chosen.map fun c => if c.1 == k then (k, shown) else c).filter (·.1 != .llm) =
      (chosen.filter (·.1 != .llm)).map fun c => if c.1 == k then (k, shown) else c := by
  rw [List.filter_map]
  refine congrArg (List.map _) (List.filter_congr fun c _ => ?_)
  show ((if c.1 == k then (k, shown) else c).1 != .llm) = (c.1 != .llm)
  split
  · rename_i hc
    rw [← beq_iff_eq.1 hc]
  · rfl

theorem chosenElsewhere_choose_llm (s : Session) (shown : Bool) :
    (s.choose .llm shown).chosenElsewhere = s.chosenElsewhere := by
  rw [chosenElsewhere, choose]
  dsimp only
  split
  · rw [filter_chosen]
    refine (List.map_congr_left (g := id) fun c hc => ?_).trans (List.map_id _)
    have hne : c.1 ≠ .llm := by simpa using (List.mem_filter.1 hc).2
    exact if_neg (by simpa using hne)
  · rw [List.filter_append]
    exact List.append_nil _

/-- A choice elsewhere is made among those elsewhere. -/
theorem chosenElsewhere_choose {k : LayerKind} (hk : k ≠ .llm) (shown : Bool) :
    (s.choose k shown).chosenElsewhere =
      (({ s with chosen := s.chosenElsewhere } : Session).choose k shown).chosen := by
  have hany : s.chosenElsewhere.any (·.1 == k) = s.chosen.any (·.1 == k) := by
    rw [chosenElsewhere, List.any_filter]
    refine congrArg s.chosen.any (funext fun c => ?_)
    by_cases hc : c.1 = k
    · simp [hc, hk]
    · simp [hc]
  have hkept : [(k, shown)].filter (fun c => c.1 != .llm) = [(k, shown)] :=
    List.filter_cons_of_pos (by simpa using hk)
  rw [chosenElsewhere, choose, choose]
  dsimp only
  rw [hany]
  split
  · exact filter_chosen s.chosen k shown
  · rw [List.filter_append, hkept]
    rfl

/-- What keys do to the view elsewhere depends on nothing that the model has
brought. -/
theorem basis_seen (h : s'.basis = s.basis) (k : Key) : (s'.seen k).basis = (s.seen k).basis := by
  have hground := ground_of_basis h
  have hcursor : s'.cursor = s.cursor := (congrArg Session.cursor h :)
  have hchosen := chosenElsewhere_of_basis h
  have hactive : s'.active = s.active := congrArg LayerKind.all.filter (applies_congr hground)
  have hmoves : ∀ by_ : Int, (s'.moveBy by_).basis = (s.moveBy by_).basis := by
    intro by_
    refine basis_congr hground ?_ hchosen
    rw [Session.moveBy, Session.moveBy, hcursor, hactive]
  cases k with
  | down => exact hmoves 1
  | up => exact hmoves (-1)
  | enter =>
    refine basis_congr hground hcursor ?_
    have hstep : s'.cursorStep = s.cursorStep := by rw [cursorStep, cursorStep, hcursor, hactive]
    show (s'.choose s'.cursorStep (! s'.isExpanded s'.cursorStep)).chosenElsewhere =
      (s.choose s.cursorStep (! s.isExpanded s.cursorStep)).chosenElsewhere
    rw [hstep]
    by_cases hllm : s.cursorStep = .llm
    · rw [hllm, chosenElsewhere_choose_llm, chosenElsewhere_choose_llm, hchosen]
    · have hexpanded : s'.isExpanded s.cursorStep = s.isExpanded s.cursorStep := by
        rw [isExpanded, isExpanded, ← lookup_chosenElsewhere hllm, ← lookup_chosenElsewhere hllm,
          hchosen, status_of_ground hground hllm]
      rw [chosenElsewhere_choose hllm, chosenElsewhere_choose hllm, hexpanded, choose, choose]
      dsimp only
      rw [hchosen]
  | _ => exact h

theorem basis_looked (h : s'.basis = s.basis) (keys : List Key) :
    (s'.looked keys).basis = (s.looked keys).basis := by
  induction keys generalizing s s' with
  | nil => exact h
  | cons k keys ih => exact ih (basis_seen h k)

/-- Wherever its model's step starts again, a session looks like any other
with the same basis. -/
theorem looksLike_restarted (h : s'.basis = s.basis) (now now' : Float) (model model' : String) :
    (s.modelReset.modelStarted now model).LooksLike
      (s'.modelReset.modelStarted now' model') := by
  have hground := ground_of_basis h
  refine ⟨(congrArg Session.cursor h :), chosenElsewhere_of_basis h, applies_congr hground,
    fun k => ?_⟩
  cases k with
  | text =>
    have hstatus : s'.text.status = s.text.status := (congrArg (·.text.status) hground :)
    exact congrArg (opensItself .text) hstatus
  | ocr =>
    have hstatus : s'.ocr.status = s.ocr.status := (congrArg (·.ocr.status) hground :)
    exact congrArg (opensItself .ocr) hstatus
  | llm => rfl

end Session

namespace Office

variable {o o' : Office} {s s' : Session} {h later : List Entry} {e : Entry}

/-- A rerun that asks starts the model's step of the session again. -/
theorem restarted_of_rerun (hmove : Move o e o') (hs : o.bench.session = some s)
    (hrerun : e.what.IsRerun) (hasks : e.asks s.number) :
    ∃ now, o'.bench.session = some (s.modelReset.modelStarted now o.bench.modelLabel) := by
  obtain ⟨now, hbench, hcommand⟩ := bench_of_rerun hmove hrerun
  rcases Workbench.rerun_eq hs now with ⟨client, -, -, hturn⟩ | hturn
  · rw [hbench, hturn]
    exact ⟨now, rfl⟩
  · rw [Entry.asks, hcommand, hturn] at hasks
    cases hasks

/-- Once its pages are read, only keys change the basis of a session. -/
theorem basis_move (hrecorded : o.Recorded h) (hmove : Move o e o')
    (hs : o.bench.session = some s) (hs' : o'.bench.session = some s')
    (hnumber : s'.number = s.number) (hocr : s.ocr.status ≠ .running)
    (hllm : s.llm.status ≠ .pending) : s'.basis = (s.looked e.look?.toList).basis := by
  have hchange := change_of_number hrecorded.sound hmove hs hs' hnumber
  by_cases hasks : e.asks s.number
  · have hrerun := hchange.isRerun_of_asks hocr hasks
    obtain ⟨now, hrestarted⟩ := restarted_of_rerun hmove hs hrerun hasks
    obtain rfl := Option.some.inj (hs'.symm.trans hrestarted)
    rw [Entry.look?_of_isRerun hrerun]
    exact Session.basis_congr rfl rfl s.chosenElsewhere_modelReset
  · have hlooks := looksLike_move hrecorded.sound hmove hs hs' hnumber hocr hllm hasks
    refine Session.basis_congr ((hchange.ground hocr).trans (s.ground_looked _).symm)
      hlooks.cursor ?_
    rw [Session.chosenElsewhere, Session.chosenElsewhere, hlooks.chosen]

theorem basis_of_chronicle (hrecorded : o.Recorded h) (hrun : Chronicle o later o')
    (hs : o.bench.session = some s) (hs' : o'.bench.session = some s')
    (hnumber : s'.number = s.number) (hocr : s.ocr.status ≠ .running)
    (hllm : s.llm.status ≠ .pending) : s'.basis = (s.looked (Entry.looks later)).basis := by
  induction hrun generalizing s' with
  | nil =>
    obtain rfl : s = s' := Option.some.inj (hs.symm.trans hs')
    rfl
  | @snoc later e o₁ o₂ hrun hmove ih =>
    obtain ⟨s₁, hs₁, hn⟩ := exists_session_before hrecorded hrun hmove hs hs' hnumber
    have hcourse := course_of_chronicle hrecorded hs hrun hs₁ hn
    rw [Entry.looks_append, Session.looked_append, ← Session.basis_looked (ih hs₁ hn)]
    refine basis_move (recorded_append hrecorded hrun) hmove hs₁ hs' (hnumber.trans hn.symm) ?_
      (hcourse.ne_pending hllm)
    rw [hcourse.ocr_of_ne_running hocr]
    exact hocr

end Office
end Intake
