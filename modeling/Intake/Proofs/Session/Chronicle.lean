import Intake.Proofs.Session.InFlight

/-!
# Chronicles

All that happens in an office, written down entry by entry: documents are
opened, the workbench is called directly, keys are pressed, commands are
carried on in any workshop, and what was delivered is handled in any order.
No delivery and no workshop is ruled out.

There are six groups.

* Opening.  `Workshop.opens_cases` says that a session is opened at the
  workbench, or that nothing comes of it.
* Moves.  `Office.Move` is one move and the entry that tells of it;
  `Office.Chronicle` is a run with its entries.
* Calls.  A direct call does what its key does.
* What is spared.  `Workbench.Alters` is what every turn but an acceptance
  may change, and `Workbench.Spares` what it leaves alone.
* Soundness.  `sound_move` says that every move preserves the invariant of an
  office, also the end of a reply with a number too large.
* Stores.  `spares_move` says that only an acceptance changes the store.
-/

namespace Intake

/-! ## Opening -/

/-- The workbench knows of other tools or has other records, and is the same
otherwise. -/
def Workbench.Prepares (w w' : Workbench) : Prop :=
  ∃ capabilities records, w' = { w with capabilities := capabilities, records := records }

theorem Workbench.Prepares.sound {w w' : Workbench} {whole : Prop} {items : List Task}
    (h : w.Prepares w') (hsound : w.Sound whole items) : w'.Sound whole items := by
  obtain ⟨capabilities, records, rfl⟩ := h
  refine ⟨hsound.fired_le, hsound.owner_le, fun s hs => ?_⟩
  have hattends := hsound.session s hs
  exact ⟨hattends.number_le, hattends.unfired, hattends.hasLlm, hattends.stands⟩

namespace Workshop

/-- A session is opened for what is given, or for a stored document. -/
inductive Opens : StateM Workshop (Except Fault (Option Command)) → Prop where
  | given (document : Int) (filename : String) (data : Text.Utf8.Bytes) (mime text : String) :
      Opens (Workshop.open document filename data mime text)
  | stored (id : Int) : Opens (openDocument id)

/-- The turn that work at the workbench amounts to. -/
def turnOf (s : Workshop) (work : StateM Workshop (Except Fault (Option Command))) : Turn where
  bench := (work s).2.bench
  outcome := (work s).1

theorem prepares_survey (mime : String) (s : Workshop) :
    s.bench.Prepares (survey mime s).2.bench := by
  rw [survey]
  split
  · exact ⟨s.bench.capabilities, s.bench.records, rfl⟩
  · exact ⟨_, s.bench.records, rfl⟩

theorem turnOf_open (s : Workshop) (document : Int) (filename : String) (data : Text.Utf8.Bytes)
    (mime text : String) :
    s.turnOf (Workshop.open document filename data mime text) =
      (survey mime s).2.bench.open (survey mime s).2.site.book.clock document filename data mime
        text := rfl

theorem bench_textOf (d : Document) (data : Text.Utf8.Bytes) (s : Workshop) :
    (textOf d data s).2.bench = s.bench := by
  rw [textOf]
  split
  · rfl
  · rfl

theorem prepares_usableText (w : Workbench) (d : Document) (text : Except Fault String) :
    w.Prepares (w.usableText d text).1 := by
  cases text with
  | ok text => exact ⟨w.capabilities, w.records, rfl⟩
  | error e =>
    show w.Prepares (if e.isTool then _ else _ : Workbench × Except Fault String).1
    split
    · exact ⟨w.capabilities, _, rfl⟩
    · exact ⟨w.capabilities, w.records, rfl⟩

/-- The text of a stored document and the workshop that has it at hand. -/
def loaded (s : Workshop) (d : Document) (data : Text.Utf8.Bytes) :
    Except Fault String × Workshop :=
  work (fun _ bench => bench.usableText d (textOf d data s).1) (textOf d data s).2

theorem prepares_loaded (s : Workshop) (d : Document) (data : Text.Utf8.Bytes) :
    s.bench.Prepares (s.loaded d data).2.bench := by
  show s.bench.Prepares ((textOf d data s).2.bench.usableText d (textOf d data s).1).1
  rw [bench_textOf]
  exact prepares_usableText _ _ _

variable {s s' : Workshop} {id : Int} {d : Document} {data : Text.Utf8.Bytes} {e : Fault}

theorem openDocument_of_unloaded (hload : s.bench.load id = .error e) :
    openDocument id s = (.error e, s) := by
  simp only [openDocument, bind, StateT.bind, get, getThe, MonadStateOf.get, StateT.get, pure,
    hload]
  rfl

theorem openDocument_of_refused (hload : s.bench.load id = .ok (d, data))
    (hloaded : s.loaded d data = (.error e, s')) : openDocument id s = (.error e, s') := by
  rw [loaded] at hloaded
  simp only [openDocument, bind, StateT.bind, get, getThe, MonadStateOf.get, StateT.get, pure,
    hload]
  rcases htext : textOf d data s with ⟨text, s''⟩
  rw [htext] at hloaded
  simp only [hloaded]
  rfl

theorem openDocument_of_loaded (hload : s.bench.load id = .ok (d, data)) {text : String}
    (hloaded : s.loaded d data = (.ok text, s')) :
    openDocument id s = Workshop.open d.id d.fileName data d.mimeType text s' := by
  rw [loaded] at hloaded
  simp only [openDocument, bind, StateT.bind, get, getThe, MonadStateOf.get, StateT.get, pure,
    hload]
  rcases htext : textOf d data s with ⟨text, s''⟩
  rw [htext] at hloaded
  simp only [hloaded]

/-- A session is opened at the workbench, or nothing comes of it. -/
theorem opens_cases {work : StateM Workshop (Except Fault (Option Command))} (h : Opens work)
    (s : Workshop) : ∃ w, s.bench.Prepares w ∧
      ((∃ e, s.turnOf work = ⟨w, .error e⟩) ∨ ∃ now document filename data mime text,
        s.turnOf work = w.open now document filename data mime text) := by
  cases h with
  | given document filename data mime text =>
    exact ⟨_, prepares_survey mime s, Or.inr ⟨_, _, _, _, _, _, turnOf_open s _ _ _ _ _⟩⟩
  | stored id =>
    cases hload : s.bench.load id with
    | error e =>
      rw [turnOf, openDocument_of_unloaded hload]
      exact ⟨s.bench, ⟨_, _, rfl⟩, Or.inl ⟨e, rfl⟩⟩
    | ok found =>
      rcases found with ⟨d, data⟩
      have hprepares := prepares_loaded s d data
      rcases hloaded : s.loaded d data with ⟨text, s'⟩
      rw [hloaded] at hprepares
      cases text with
      | error e =>
        rw [turnOf, openDocument_of_refused hload hloaded]
        exact ⟨s'.bench, hprepares, Or.inl ⟨e, rfl⟩⟩
      | ok text =>
        obtain ⟨_, _, hbench⟩ := hprepares
        obtain ⟨capabilities, records, hsurvey⟩ := prepares_survey d.mimeType s'
        rw [turnOf, openDocument_of_loaded hload hloaded]
        refine ⟨_, ⟨capabilities, records, ?_⟩,
          Or.inr ⟨_, _, _, _, _, _, turnOf_open s' _ _ _ _ _⟩⟩
        rw [hsurvey, hbench]

end Workshop

/-! ## Moves -/

/-- What happens in an office. -/
inductive Happening where
  | opens
  | reruns
  | cancels
  | accepts
  | presses (k : Key)
  | carries
  | handles (d : Delivery)

/-- The workbench is asked to save the results of its session. -/
def Happening.IsAcceptance (a : Happening) : Prop := a = .accepts ∨ a = .handles (.key .accept)

/-- An entry of a chronicle. -/
structure Entry where
  what : Happening
  /-- The command that was given. -/
  command : Option Command := none
  /-- The session whose results were saved. -/
  saved : Option Nat := none

/-- The session whose results an acceptance saves. -/
def Workbench.saved? (w : Workbench) : Option Nat :=
  match w.accept.2 with
  | .ok true => w.session.map (·.number)
  | _ => none

/-- The session whose results are saved when a delivery is handled. -/
def Workbench.savedBy? (w : Workbench) : Delivery → Option Nat
  | .key .accept => w.saved?
  | _ => none

namespace Office

/-- The entry of a turn that saves nothing. -/
def entry (what : Happening) (t : Turn) : Entry := { what := what, command := t.command? }

/-- One move of an office and the entry that tells of it. -/
inductive Move (o : Office) : Entry → Office → Prop where
  | opens (s : Workshop) {work : StateM Workshop (Except Fault (Option Command))}
      (hwork : Workshop.Opens work) (hbench : s.bench = o.bench) :
      Move o (entry .opens (s.turnOf work)) (o.after (s.turnOf work))
  | reruns (now : Float) :
      Move o (entry .reruns (o.bench.rerun now)) (o.after (o.bench.rerun now))
  | cancels : Move o { what := .cancels } { o with bench := o.bench.cancel }
  | accepts :
      Move o { what := .accepts, saved := o.bench.saved? } { o with bench := o.bench.accept.1 }
  | presses (k : Key) : Move o { what := .presses k } { o with loop := o.loop.send (.key k) }
  | carries {i : Nat} {task : Task} (s : Workshop) (htask : o.loop.running[i]? = some task)
      (hbench : s.bench = o.bench) :
      Move o { what := .carries } (o.carry i (Workshop.proceed task s))
  | handles {i : Nat} {d : Delivery} (now : Float) (hd : o.loop.queue[i]? = some d) :
      Move o { what := .handles d, command := (o.bench.handle now d).command?,
               saved := o.bench.savedBy? d }
        ((o.without i).after (o.bench.handle now d))

/-- A run of an office with its entries, the oldest first. -/
inductive Chronicle (o : Office) : List Entry → Office → Prop where
  | nil : Chronicle o [] o
  | snoc {h : List Entry} {e : Entry} {o' o'' : Office} (hrun : Chronicle o h o')
      (hmove : Move o' e o'') : Chronicle o (h ++ [e]) o''

/-- A run can be taken apart at each of its entries. -/
theorem Chronicle.split {o o' : Office} {earlier later : List Entry} {e : Entry}
    (h : Chronicle o (earlier ++ e :: later) o') :
    ∃ o₁ o₂, Chronicle o earlier o₁ ∧ Move o₁ e o₂ ∧ Chronicle o₂ later o' := by
  induction later using List.reverseRecOn generalizing o' with
  | nil =>
    generalize hentries : earlier ++ [e] = entries at h
    cases h with
    | nil => simp at hentries
    | snoc hrun hmove =>
      obtain ⟨rfl, he⟩ := List.append_inj' hentries rfl
      obtain rfl : e = _ := List.singleton_injective he
      exact ⟨_, _, hrun, hmove, .nil⟩
  | append_singleton later last ih =>
    rw [← List.cons_append, ← List.append_assoc] at h
    generalize hentries : earlier ++ e :: later ++ [last] = entries at h
    cases h with
    | nil => simp at hentries
    | snoc hrun hmove =>
      obtain ⟨rfl, he⟩ := List.append_inj' hentries rfl
      obtain rfl : last = _ := List.singleton_injective he
      obtain ⟨o₁, o₂, hearlier, hsplit, hlater⟩ := ih hrun
      exact ⟨o₁, o₂, hearlier, hsplit, hlater.snoc hmove⟩

end Office

/-! ## Calls -/

namespace Workbench

variable {w : Workbench}

theorem rerun_eq_handle (w : Workbench) (now : Float) :
    w.rerun now = w.handle now (.key .rerun) := by
  cases hs : w.session with
  | none => rw [handle_key_of_none hs, rerun, hs]
  | some s => simp only [handle_key_of_some hs, onKey, hs]

theorem cancel_eq_handle (w : Workbench) (now : Float) :
    w.cancel = (w.handle now (.key .escape)).bench := by
  cases hs : w.session with
  | none => rw [handle_key_of_none hs, cancel, hs]
  | some s => simp only [handle_key_of_some hs, onKey, hs]

theorem accept_eq_handle (w : Workbench) (now : Float) :
    w.accept.1 = (w.handle now (.key .accept)).bench := by
  cases hs : w.session with
  | none => rw [handle_key_of_none hs, accept, hs]
  | some s => simp only [handle_key_of_some hs, onKey, hs]

theorem command?_escape (w : Workbench) (now : Float) :
    (w.handle now (.key .escape)).command? = none := by
  cases hs : w.session with
  | none => rw [handle_key_of_none hs]; rfl
  | some s => simp only [handle_key_of_some hs, onKey, hs]; rfl

theorem command?_map_none (w : Workbench) (saved : Except Fault Bool) :
    Turn.command? ⟨w, saved.map fun _ => none⟩ = none := by
  cases saved with
  | ok b => rfl
  | error e => rfl

theorem command?_accept (w : Workbench) (now : Float) :
    (w.handle now (.key .accept)).command? = none := by
  cases hs : w.session with
  | none => rw [handle_key_of_none hs]; rfl
  | some s =>
    simp only [handle_key_of_some hs, onKey, hs]
    exact command?_map_none _ _

end Workbench

/-! ## What is spared -/

namespace Workbench

/-- At most the open session, what was cancelled and the records differ. -/
def Alters (w w' : Workbench) : Prop :=
  ∃ session fired closings records,
    w' = { w with session := session, fired := fired, closings := closings, records := records }

theorem Alters.rfl {w : Workbench} : w.Alters w :=
  ⟨w.session, w.fired, w.closings, w.records, by rfl⟩

theorem Touches.alters {w w' : Workbench} (h : w.Touches w') : w.Alters w' := by
  obtain ⟨session, records, rfl⟩ := h
  exact ⟨session, w.fired, w.closings, records, by rfl⟩

theorem alters_cancel (w : Workbench) : w.Alters w.cancel := by
  rw [cancel]
  split
  · exact Alters.rfl
  · exact ⟨none, _, _, w.records, rfl⟩

/-- Only the key for it may save results. -/
theorem alters_take (w : Workbench) (now : Float) (s : Session) {d : Delivery}
    (haccept : d ≠ .key .accept) : w.Alters (w.take now s d).bench := by
  by_cases hescape : d = .key .escape
  · subst hescape
    show w.Alters (w.onKey now .escape).bench
    cases hs : w.session with
    | none =>
      simp only [onKey, hs]
      exact Alters.rfl
    | some s =>
      simp only [onKey, hs]
      exact alters_cancel w
  · exact (touches_take w now s haccept hescape).alters

theorem alters_drop (w : Workbench) (d : Delivery) : w.Alters (w.drop d) := by
  cases d with
  | replyOpened owner stream => exact ⟨w.session, w.fired, _, w.records, rfl⟩
  | _ => exact Alters.rfl

theorem alters_handle (w : Workbench) (now : Float) {d : Delivery} (hd : d ≠ .key .accept) :
    w.Alters (w.handle now d).bench := by
  unfold handle
  split
  · exact alters_take w now _ hd
  · exact Alters.rfl
  · split
    · exact alters_take w now _ hd
    · exact alters_drop w d
  · exact alters_drop w d

/-- The store and the count of the sessions are as they were. -/
structure Spares (w w' : Workbench) : Prop where
  store : w'.store = w.store
  opened : w'.opened = w.opened

theorem Alters.spares {w w' : Workbench} (h : w.Alters w') : w.Spares w' := by
  obtain ⟨_, _, _, _, rfl⟩ := h
  exact ⟨by rfl, by rfl⟩

theorem Touches.spares {w w' : Workbench} (h : w.Touches w') : w.Spares w' := h.alters.spares

theorem spares_cancel (w : Workbench) : w.Spares w.cancel := (alters_cancel w).spares

theorem spares_handle (w : Workbench) (now : Float) {d : Delivery} (hd : d ≠ .key .accept) :
    w.Spares (w.handle now d).bench :=
  (alters_handle w now hd).spares

/-- Opening a document keeps the store and counts at most one session. -/
theorem spares_open (w : Workbench) (now : Float) (document : Int) (filename : String)
    (data : Text.Utf8.Bytes) (mime text : String) :
    (w.open now document filename data mime text).bench.store = w.store ∧
      w.opened ≤ (w.open now document filename data mime text).bench.opened := by
  obtain ⟨hstore, hopened⟩ := spares_cancel w
  rw [Workbench.open]
  split
  · exact ⟨hstore, Nat.le_succ _⟩
  · rename_i client _ _
    have hstart := (touches_startModel w.begun now client
      (w.newSession document filename data mime text)).spares
    exact ⟨hstart.store.trans hstore, hstart.opened.symm ▸ Nat.le_succ _⟩
  · exact ⟨hstore, hopened.ge⟩

theorem opened_accept (w : Workbench) : w.accept.1.opened = w.opened := by
  rw [accept]
  split
  · rfl
  · split
    · rfl
    · split
      · rfl
      · split
        · rfl
        · dsimp only
          split
          · rfl
          · rfl

theorem Prepares.spares {w w' : Workbench} (h : w.Prepares w') : w.Spares w' := by
  obtain ⟨capabilities, records, rfl⟩ := h
  exact ⟨rfl, rfl⟩

end Workbench

/-! ## Soundness -/

namespace Office

theorem sound_opens {o : Office} {s : Workshop}
    {work : StateM Workshop (Except Fault (Option Command))} (h : o.Sound False)
    (hwork : Workshop.Opens work) (hbench : s.bench = o.bench) :
    (o.after (s.turnOf work)).Sound False := by
  obtain ⟨w, hprepares, hturn⟩ := Workshop.opens_cases hwork s
  rw [hbench] at hprepares
  have hw := hprepares.sound h
  rcases hturn with ⟨e, hturn⟩ | ⟨now, document, filename, data, mime, text, hturn⟩
  · rw [hturn]
    exact sound_after hw
  · rw [hturn]
    exact sound_after (Workbench.sound_open hw now document filename data mime text)

theorem sound_move {o o' : Office} {e : Entry} (h : o.Sound False) (hmove : Move o e o') :
    o'.Sound False := by
  cases hmove with
  | opens s hwork hbench => exact sound_opens h hwork hbench
  | reruns now =>
    rw [Workbench.rerun_eq_handle]
    exact sound_after (Workbench.sound_key h now .rerun)
  | cancels =>
    have hkey := Workbench.sound_key h 0 .escape
    rw [Workbench.command?_escape, ← Workbench.cancel_eq_handle] at hkey
    exact hkey
  | accepts =>
    have hkey := Workbench.sound_key h 0 .accept
    rw [Workbench.command?_accept, ← Workbench.accept_eq_handle] at hkey
    exact hkey
  | presses k =>
    have hpresses : Activity (fun _ => True) o { o with loop := o.loop.send (.key k) } :=
      .presses k
    exact sound_activity (fun _ _ hfalse => hfalse.elim) h hpresses
  | @carries i task s htask hbench =>
    have hcarries : Activity (fun _ => True) o (o.carry i (Workshop.proceed task s)) :=
      .carries s htask hbench trivial
    exact sound_activity (fun _ _ hfalse => hfalse.elim) h hcarries
  | handles now hd =>
    have hitems := Workbench.Sound.perm h (items_without hd)
    exact sound_after (Workbench.sound_handle hitems False.elim now)

/-! ## Stores -/

theorem bench_carry {o : Office} {s : Workshop} (hbench : s.bench = o.bench) (i : Nat)
    (task : Task) : (o.carry i (Workshop.proceed task s)).bench = o.bench ∨
      ∃ owner stream, (o.carry i (Workshop.proceed task s)).bench =
        o.bench.onSession (Workshop.informed owner stream) := by
  rw [← hbench]
  exact Workshop.bench_proceed s task

/-- Only an acceptance changes the store, and no move takes the number of a
session back. -/
theorem spares_move {o o' : Office} {e : Entry} (hmove : Move o e o') :
    (¬ e.what.IsAcceptance → o'.bench.store = o.bench.store) ∧
      o.bench.opened ≤ o'.bench.opened := by
  cases hmove with
  | opens s hwork hbench =>
    obtain ⟨w, hprepares, hturn⟩ := Workshop.opens_cases hwork s
    rw [hbench] at hprepares
    obtain ⟨hstore, hopened⟩ := hprepares.spares
    rw [← hstore, ← hopened]
    rcases hturn with ⟨e, hturn⟩ | ⟨now, document, filename, data, mime, text, hturn⟩
    · rw [hturn]
      exact ⟨fun _ => rfl, le_refl _⟩
    · rw [hturn]
      have hopens := Workbench.spares_open w now document filename data mime text
      exact ⟨fun _ => hopens.1, hopens.2⟩
  | reruns now =>
    have hspares := (Workbench.touches_rerun o.bench now).spares
    exact ⟨fun _ => hspares.store, hspares.opened.ge⟩
  | cancels =>
    have hspares := Workbench.spares_cancel o.bench
    exact ⟨fun _ => hspares.store, hspares.opened.ge⟩
  | accepts => exact ⟨fun h => absurd (Or.inl rfl) h, (Workbench.opened_accept o.bench).ge⟩
  | presses k => exact ⟨fun _ => rfl, le_refl _⟩
  | @carries i task s htask hbench =>
    rcases bench_carry hbench i task with hcarry | ⟨owner, stream, hcarry⟩
    · rw [hcarry]
      exact ⟨fun _ => rfl, le_refl _⟩
    · rw [hcarry]
      exact ⟨fun _ => rfl, le_refl _⟩
  | @handles i d now hd =>
    by_cases haccept : d = .key .accept
    · subst haccept
      refine ⟨fun h => absurd (Or.inr rfl) h, ?_⟩
      show _ ≤ (o.bench.handle now (.key .accept)).bench.opened
      rw [← Workbench.accept_eq_handle]
      exact (Workbench.opened_accept o.bench).ge
    · have hspares := Workbench.spares_handle o.bench now haccept
      exact ⟨fun _ => hspares.store, hspares.opened.ge⟩

end Office
end Intake
