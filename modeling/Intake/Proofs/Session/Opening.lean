import Intake.Proofs.Session.Erasure

/-!
# Opening sessions

A workbench opens the same session whatever it did before, and goes on with
that session until it is closed or another is opened.

There are three groups.

* Numbers.  `Turn.StaysWith` says that a turn goes on with one session;
  `staysWith_handle` says it of whatever is delivered.
* Opening.  `open_of_reads` and `open_of_asks` are the two ways in which a
  session begins; `erased_open` says that the past plays no part in them.
* Workshops.  `apart_turnOf` says the same of work in a workshop.
-/

namespace Intake

/-! ## Numbers -/

/-- The session that is open after a turn has the number, and the command is
for it. -/
structure Turn.StaysWith (t : Turn) (n : Nat) : Prop where
  session : ∀ s ∈ t.bench.session, s.number = n
  command : ∀ c ∈ t.command?, c.owner = n

namespace Workbench

variable {n : Nat} {w : Workbench} {s : Session} (now : Float)

theorem staysWith_withSession (w : Workbench) (s : Session) (e? : Option Fault) :
    Turn.StaysWith ⟨w.withSession s, e?.elim (.ok none) .error⟩ s.number := by
  refine ⟨fun s' hs' => ?_, fun c hc => ?_⟩
  · cases hs'
    rfl
  · cases e? with
    | none => cases hc
    | some e => cases hc

theorem staysWith_command (w : Workbench) (s : Session) {c : Command} (hc : c.owner = s.number) :
    Turn.StaysWith ⟨w.withSession s, .ok (some c)⟩ s.number := by
  refine ⟨fun s' hs' => ?_, fun c' hc' => ?_⟩
  · cases hs'
    rfl
  · cases hc'
    exact hc

theorem staysWith_startModel (w : Workbench) (client : ChatClient) (s : Session) :
    (w.startModel now client s).StaysWith s.number :=
  staysWith_command w.knownEntities.2 (s.modelStarted now w.modelLabel) rfl

theorem staysWith_afterPages (w : Workbench) (s : Session) :
    (w.afterPages now s).StaysWith s.number := by
  rcases afterPages_cases w now s with ⟨client, -, -, heq⟩ | ⟨-, heq⟩
  · rw [heq]
    exact staysWith_startModel now w client s
  · rw [heq]
    exact staysWith_withSession w { s with done := true } none

theorem staysWith_onProgress (w : Workbench) (s : Session) (p : Progress) :
    (w.onProgress now s p).StaysWith s.number := by
  rw [onProgress]
  split
  · exact staysWith_afterPages now w _
  · split
    · exact staysWith_afterPages now w _
    · exact staysWith_command w (s.pagesMoved p) rfl

theorem staysWith_readReply (w : Workbench) (s : Session) :
    (w.readReply s).StaysWith s.number := by
  rw [readReply]
  cases Reply.read s.replyText with
  | ok hints => exact staysWith_withSession _ (s.replyRead hints) none
  | error failure =>
    cases failure with
    | malformed m => exact staysWith_withSession _ (s.replyRefused m) none
    | overflow => exact staysWith_withSession _ s (some .overflow)

theorem staysWith_onChunk (w : Workbench) (s : Session) (c : Chunk) :
    (w.onChunk now s c).StaysWith s.number := by
  rw [onChunk]
  split
  · exact staysWith_withSession w (s.replyFailed now _) none
  · rw [← number_replyGrown s c.text]
    dsimp only
    split
    · exact staysWith_readReply w ((s.replyGrown c.text).replyEnded now)
    · exact staysWith_command w (s.replyGrown c.text) rfl

/-- A turn that gives nothing out and changes the session but not its
number. -/
theorem staysWith_of_session {t : Turn} (hs : ∀ s ∈ w.session, s.number = n)
    (hcommand : t.command? = none)
    (h : ∀ s ∈ t.bench.session, ∃ s' ∈ w.session, s.number = s'.number) : t.StaysWith n := by
  refine ⟨fun s hmem => ?_, fun c hc => ?_⟩
  · obtain ⟨s', hs', hnumber⟩ := h s hmem
    exact hnumber.trans (hs s' hs')
  · cases hcommand.symm.trans hc

theorem staysWith_rerun (hs : ∀ s ∈ w.session, s.number = n) : (w.rerun now).StaysWith n := by
  have hidle : Turn.StaysWith ⟨w, .ok none⟩ n :=
    staysWith_of_session hs rfl fun s hmem => ⟨s, hmem, rfl⟩
  rw [rerun]
  split
  · rename_i s client hsome _
    split
    · rw [← hs s hsome]
      exact staysWith_startModel now w client s.modelReset
    · exact hidle
  · exact hidle

theorem staysWith_onKey (hs : ∀ s ∈ w.session, s.number = n) (k : Key) :
    (w.onKey now k).StaysWith n := by
  have hidle : Turn.StaysWith ⟨w, .ok none⟩ n :=
    staysWith_of_session hs rfl fun s hmem => ⟨s, hmem, rfl⟩
  have honSession : ∀ f : Session → Session, (∀ s, (f s).number = s.number) →
      Turn.StaysWith ⟨w.onSession f, .ok none⟩ n := by
    intro f hf
    refine staysWith_of_session hs rfl fun s hmem => ?_
    obtain ⟨s', hs', rfl⟩ := Option.map_eq_some_iff.1 hmem
    exact ⟨s', hs', hf s'⟩
  unfold onKey
  split
  · refine staysWith_of_session hs rfl fun s hmem => ?_
    cases (frames_cancel w).2.2.1.symm.trans hmem
  · exact staysWith_rerun now hs
  · refine staysWith_of_session hs (command?_map_none _ _) fun s hmem => ?_
    rcases session_accept w with hnone | hsame
    · cases hnone.symm.trans hmem
    · exact ⟨s, hsame ▸ hmem, rfl⟩
  · exact honSession _ fun _ => rfl
  · exact honSession _ fun _ => rfl
  · exact honSession _ fun _ => rfl
  · exact hidle

theorem staysWith_take (hs : w.session = some s) (d : Delivery) :
    (w.take now s d).StaysWith s.number := by
  have hmine : ∀ s' ∈ w.session, s'.number = s.number := by
    intro s' hs'
    obtain rfl := Option.some.inj (hs.symm.trans hs')
    rfl
  cases d with
  | progress owner p => exact staysWith_onProgress now w s p
  | replyOpened owner stream => exact staysWith_command w { s with reply := some stream } rfl
  | chunk owner c => exact staysWith_onChunk now w s c
  | key k => exact staysWith_onKey now hmine k
  | other owner => exact staysWith_of_session hmine rfl fun s' hs' => ⟨s', hs', rfl⟩

/-- Whatever is delivered, no other session comes in its place. -/
theorem staysWith_handle (hs : ∀ s ∈ w.session, s.number = n) (d : Delivery) :
    (w.handle now d).StaysWith n := by
  have hdropped : Turn.StaysWith ⟨w.drop d, .ok none⟩ n :=
    staysWith_of_session hs rfl fun s hmem => ⟨s, (drop_frames w d).2 ▸ hmem, rfl⟩
  unfold handle
  split
  · rename_i s _ hsome
    rw [← hs s hsome]
    exact staysWith_take now hsome d
  · exact staysWith_of_session hs rfl fun s hmem => ⟨s, hmem, rfl⟩
  · rename_i s _ hsome
    split
    · rw [← hs s hsome]
      exact staysWith_take now hsome d
    · exact hdropped
  · exact hdropped

end Workbench

/-- A turn whose command is for the session of a number gives the command of
any turn it agrees with. -/
theorem Turn.command?_of_erased {t t' : Turn} {n n' : Nat} (h : t'.erased n' = t.erased n)
    (hcommand : ∀ c ∈ t'.command?, c.owner = n') :
    t'.command? = t.command?.map (·.addressed n') := by
  have herased : ∀ (m : Nat) (u : Turn), (u.erased m).command? =
      u.command?.map (·.addressed 0) := by
    intro m u
    rcases u with ⟨bench, outcome⟩
    cases outcome with
    | ok c? => rfl
    | error e => rfl
  have hsame : t'.command?.map (·.addressed 0) = t.command?.map (·.addressed 0) := by
    rw [← herased n', ← herased n, h]
  have hback : ∀ c? : Option Command, (c?.map (·.addressed 0)).map (·.addressed n') =
      c?.map (·.addressed n') := by
    intro c?
    rw [Option.map_map]
    exact congrArg (Option.map · c?) (funext (Command.addressed_addressed 0 n'))
  rw [← hback t.command?, ← hsame, hback]
  cases hc : t'.command? with
  | none => rfl
  | some c =>
    have howner := hcommand c hc
    rw [Option.map_some, ← howner, Command.addressed_owner]

/-! ## Opening -/

namespace Workbench

variable {w w' : Workbench} {document : Int} {filename : String} {data : Text.Utf8.Bytes}
  {mime text : String}

/-- Two workbenches that know the same of the world. -/
structure Alike (w w' : Workbench) : Prop where
  store : w'.store = w.store
  client : w'.client = w.client
  settings : w'.settings = w.settings
  capabilities : w'.capabilities = w.capabilities

theorem Alike.clientInUse (h : w.Alike w') : w'.clientInUse = w.clientInUse := by
  rw [Workbench.clientInUse, Workbench.clientInUse, h.settings, h.client]

theorem cancel_frames (w : Workbench) : w.cancel.store = w.store ∧ w.cancel.client = w.client ∧
    w.cancel.settings = w.settings ∧ w.cancel.capabilities = w.capabilities := by
  rw [cancel]
  split
  · exact ⟨rfl, rfl, rfl, rfl⟩
  · exact ⟨rfl, rfl, rfl, rfl⟩

theorem open_of_reads (hreads : w.canReadPages mime = true) (now : Float) :
    w.open now document filename data mime text =
      let s := w.newSession document filename data mime text
      ⟨w.begun.withSession { s with ocr := s.ocr.start now "" },
        .ok (some (.readPages s.number s.data s.mime s.maxPages))⟩ := by
  have hocr : (w.newSession document filename data mime text).hasOcr = true := hreads
  rw [Workbench.open]
  simp only [hocr]
  rfl

theorem open_of_asks (hreads : w.canReadPages mime = false) {client : ChatClient}
    (hclient : w.clientInUse = some client) (now : Float) :
    w.open now document filename data mime text =
      w.begun.startModel now client (w.newSession document filename data mime text) := by
  have hocr : (w.newSession document filename data mime text).hasOcr = false := hreads
  have hasks : w.cancel.clientInUse = some client := (frames_cancel w).1.trans hclient
  rw [Workbench.open]
  simp only [hocr, hasks]
  rfl

theorem open_of_idle (hreads : w.canReadPages mime = false) (hclient : w.clientInUse = none)
    (now : Float) : w.open now document filename data mime text =
      ⟨w.cancel.note .session .debug
        ("No async extraction steps apply to " ++ filename ++ " (" ++ mime ++ ")"), .ok none⟩ := by
  have hocr : (w.newSession document filename data mime text).hasOcr = false := hreads
  have hasks : w.cancel.clientInUse = none := (frames_cancel w).1.trans hclient
  rw [Workbench.open]
  simp only [hocr, hasks]

theorem session_open_of_idle (hreads : w.canReadPages mime = false)
    (hclient : w.clientInUse = none) (now : Float) :
    (w.open now document filename data mime text).bench.session = none := by
  rw [open_of_idle hreads hclient]
  exact (frames_cancel w).2.2.1

theorem erased_begun (h : w.Alike w') (hunfired : w.opened + 1 ∉ w.cancel.fired)
    (hunfired' : w'.opened + 1 ∉ w'.cancel.fired) :
    w'.begun.erased (w'.opened + 1) = w.begun.erased (w.opened + 1) := by
  have hsession := (frames_cancel w).2.2.1
  have hsession' := (frames_cancel w').2.2.1
  obtain ⟨hstore, hclient, hsettings, -⟩ := cancel_frames w
  obtain ⟨hstore', hclient', hsettings', -⟩ := cancel_frames w'
  simp [erased, begun, hasFired, hunfired, hunfired', hsession, hsession', hstore, hstore',
    hclient, hclient', hsettings, hsettings', h.store, h.client, h.settings]

theorem erased_newSession (h : w.Alike w') (document : Int) (filename : String)
    (data : Text.Utf8.Bytes) (mime text : String) :
    (w'.newSession document filename data mime text).erased =
      (w.newSession document filename data mime text).erased := by
  have hpages : w'.canReadPages mime = w.canReadPages mime := by
    rw [canReadPages, canReadPages, h.capabilities]
  simp [newSession, Session.erased, hpages, h.clientInUse, h.settings]

/-- The same session is opened, whatever was open before. -/
theorem erased_open (h : w.Alike w') (hunfired : w.opened + 1 ∉ w.cancel.fired)
    (hunfired' : w'.opened + 1 ∉ w'.cancel.fired) (now now' : Float)
    (hopens : (w.open now document filename data mime text).bench.session ≠ none) :
    (w'.open now' document filename data mime text).erased (w'.opened + 1) =
        (w.open now document filename data mime text).erased (w.opened + 1) ∧
      (w'.open now' document filename data mime text).StaysWith (w'.opened + 1) := by
  have hbegun := erased_begun h hunfired hunfired'
  have hnew := erased_newSession h document filename data mime text
  have hpages : w'.canReadPages mime = w.canReadPages mime := by
    rw [canReadPages, canReadPages, h.capabilities]
  cases hreads : w.canReadPages mime with
  | true =>
    rw [open_of_reads hreads, open_of_reads (hpages.trans hreads)]
    refine ⟨?_, staysWith_command _ _ rfl⟩
    have hstarted : ∀ s s' : Session, s'.erased = s.erased →
        Session.erased { s' with ocr := s'.ocr.start now' "" } =
          Session.erased { s with ocr := s.ocr.start now "" } := by
      intro s s' hs
      show { s'.erased with ocr := (s'.erased.ocr.start 0 "").timeless } =
        { s.erased with ocr := (s.erased.ocr.start 0 "").timeless }
      rw [hs]
    have hmax : w'.settings.maxPages = w.settings.maxPages := by rw [h.settings]
    have hbench := erased_withSession hbegun (hstarted _ _ hnew)
    dsimp only
    exact congrArg₂ (fun bench cap =>
      (⟨bench, .ok (some (.readPages 0 data mime cap))⟩ : Turn)) hbench hmax
  | false =>
    cases hclient : w.clientInUse with
    | none => exact absurd (session_open_of_idle hreads hclient now) hopens
    | some client =>
      rw [open_of_asks hreads hclient,
        open_of_asks (hpages.trans hreads) (h.clientInUse.trans hclient)]
      exact ⟨erased_startModel now now' hbegun client hnew, staysWith_startModel now' _ client _⟩

end Workbench

/-! ## Workshops -/

theorem Workbench.Prepares.trans {u v w : Workbench} (h : u.Prepares v) (h' : v.Prepares w) :
    u.Prepares w := by
  obtain ⟨_, _, rfl⟩ := h
  obtain ⟨capabilities, records, rfl⟩ := h'
  exact ⟨capabilities, records, rfl⟩

namespace Workshop

variable {s s' : Workshop}

/-- Two workshops that differ in the past of their workbenches. -/
structure Apart (s s' : Workshop) : Prop where
  rest : s' = { s with bench := s'.bench }
  alike : s.bench.Alike s'.bench

theorem apart_survey (h : s.Apart s') (mime : String) :
    (survey mime s).2.Apart (survey mime s').2 := by
  obtain ⟨hrest, halike⟩ := h
  generalize s'.bench = w at hrest halike
  subst hrest
  rw [survey, survey]
  split
  · exact ⟨rfl, halike⟩
  · exact ⟨rfl, halike.store, halike.client, halike.settings, rfl⟩

theorem apart_textOf (h : s.Apart s') (d : Document) (data : Text.Utf8.Bytes) :
    (textOf d data s').1 = (textOf d data s).1 ∧ (textOf d data s).2.Apart (textOf d data s').2 := by
  obtain ⟨hrest, halike⟩ := h
  generalize s'.bench = w at hrest halike
  subst hrest
  rw [textOf, textOf]
  dsimp only
  rw [halike.settings]
  split
  · exact ⟨rfl, rfl, halike⟩
  · exact ⟨rfl, rfl, halike⟩

theorem apart_usableText (h : s.Apart s') (d : Document) (text : Except Fault String) :
    (work (fun _ bench => bench.usableText d text) s').1 =
        (work (fun _ bench => bench.usableText d text) s).1 ∧
      (work (fun _ bench => bench.usableText d text) s).2.Apart
        (work (fun _ bench => bench.usableText d text) s').2 := by
  obtain ⟨hrest, halike⟩ := h
  generalize s'.bench = w at hrest halike
  subst hrest
  have hkept : ∀ v : Workbench, v.records.drop v.records.length = [] := fun v => List.drop_length
  cases text with
  | ok text =>
    simp only [work, Workbench.usableText, hkept, true_and]
    exact ⟨rfl, halike⟩
  | error e =>
    simp only [work, Workbench.usableText]
    split
    · simp only [Workbench.note, List.drop_left, true_and]
      exact ⟨rfl, halike.store, halike.client, halike.settings, halike.capabilities⟩
    · simp only [hkept, true_and]
      exact ⟨rfl, halike⟩

theorem apart_loaded (h : s.Apart s') (d : Document) (data : Text.Utf8.Bytes) :
    (s'.loaded d data).1 = (s.loaded d data).1 ∧ (s.loaded d data).2.Apart (s'.loaded d data).2 := by
  obtain ⟨htext, hafter⟩ := apart_textOf h d data
  rw [loaded, loaded, htext]
  exact apart_usableText hafter d _

theorem apart_open (h : s.Apart s') (document : Int) (filename : String)
    (data : Text.Utf8.Bytes) (mime text : String) : ∃ w w' now,
      s.bench.Prepares w ∧ s'.bench.Prepares w' ∧ w.Alike w' ∧
      s.turnOf (Workshop.open document filename data mime text) =
        w.open now document filename data mime text ∧
      s'.turnOf (Workshop.open document filename data mime text) =
        w'.open now document filename data mime text := by
  have hafter := apart_survey h mime
  have hclock : (survey mime s').2.site = (survey mime s).2.site :=
    (congrArg Workshop.site hafter.rest :)
  refine ⟨_, _, _, prepares_survey mime s, prepares_survey mime s', hafter.alike,
    turnOf_open s document filename data mime text, ?_⟩
  rw [turnOf_open, hclock]

/-- Work that opens a session does the same in both workshops. -/
theorem apart_turnOf (h : s.Apart s') {work : StateM Workshop (Except Fault (Option Command))}
    (hwork : Opens work) : ∃ w w', s.bench.Prepares w ∧ s'.bench.Prepares w' ∧ w.Alike w' ∧
      ((∃ e, s.turnOf work = ⟨w, .error e⟩ ∧ s'.turnOf work = ⟨w', .error e⟩) ∨
        ∃ now document filename data mime text,
          s.turnOf work = w.open now document filename data mime text ∧
          s'.turnOf work = w'.open now document filename data mime text) := by
  have hload : ∀ id, s'.bench.load id = s.bench.load id := by
    intro id
    rw [Workbench.load, Workbench.load, h.alike.store]
  cases hwork with
  | given document filename data mime text =>
    obtain ⟨w, w', now, hw, hw', halike, hturn, hturn'⟩ :=
      apart_open h document filename data mime text
    exact ⟨w, w', hw, hw', halike, Or.inr ⟨now, _, _, _, _, _, hturn, hturn'⟩⟩
  | stored id =>
    cases hfound : s.bench.load id with
    | error e =>
      rw [turnOf, turnOf, openDocument_of_unloaded hfound,
        openDocument_of_unloaded ((hload id).trans hfound)]
      exact ⟨s.bench, s'.bench, ⟨_, _, rfl⟩, ⟨_, _, rfl⟩, h.alike, Or.inl ⟨e, rfl, rfl⟩⟩
    | ok found =>
      rcases found with ⟨d, data⟩
      have hfound' := (hload id).trans hfound
      obtain ⟨htext, hafter⟩ := apart_loaded h d data
      have hprepares := prepares_loaded s d data
      have hprepares' := prepares_loaded s' d data
      rcases hloaded : s.loaded d data with ⟨text, t⟩
      rcases hloaded' : s'.loaded d data with ⟨text', t'⟩
      rw [hloaded, hloaded'] at hafter htext
      rw [hloaded] at hprepares
      rw [hloaded'] at hprepares'
      obtain rfl : text' = text := htext
      cases text' with
      | error e =>
        rw [turnOf, turnOf, openDocument_of_refused hfound hloaded,
          openDocument_of_refused hfound' hloaded']
        exact ⟨t.bench, t'.bench, hprepares, hprepares', hafter.alike, Or.inl ⟨e, rfl, rfl⟩⟩
      | ok text =>
        obtain ⟨w, w', now, hw, hw', halike, hturn, hturn'⟩ :=
          apart_open hafter d.id d.fileName data d.mimeType text
        refine ⟨w, w', hprepares.trans hw, hprepares'.trans hw', halike,
          Or.inr ⟨now, d.id, d.fileName, data, d.mimeType, text, ?_, ?_⟩⟩
        · rw [turnOf, openDocument_of_loaded hfound hloaded]
          exact hturn
        · rw [turnOf, openDocument_of_loaded hfound' hloaded']
          exact hturn'

end Workshop

end Intake
