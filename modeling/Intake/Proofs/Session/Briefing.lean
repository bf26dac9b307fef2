import Intake.Proofs.Batch.Prompted
import Intake.Proofs.Layer.Agreement
import Intake.Proofs.Session.Opening

/-!
# Briefs

What a session tells its model is settled when the session opens: by what is
known of the document then, and by what reading its pages will come to.

There are four groups.

* Briefs.  `Brief` is what is settled, and `Brief.messages` is the one prompt
  that follows from it.  `Session.Reading` and `Session.Fits` say that a
  session keeps to it, while its pages are read and afterwards, and
  `Session.ReadsLike` that it is read for as before.
* Stores.  Saving keeps the names for a prompt.
* Turns.  `fits_handle` says that every turn keeps to the brief, with one
  lemma for each operation of the workbench.
* Keys.  `readsLike_key` says what a key does while the pages are read.
-/

namespace Intake

open Text

/-! ## Briefs -/

/-- What is settled when a session opens. -/
structure Brief where
  /-- The number of the session. -/
  number : Nat
  /-- The names for a prompt. -/
  names : KnownEntities
  /-- What is known of the document before its pages are read. -/
  source : DocumentSource
  /-- What reading the pages will come to, where they are read. -/
  outcome : Option (Except Fault Page)

namespace Brief

/-- What the model is told of the document. -/
def told (b : Brief) : DocumentSource := b.source.withPages b.outcome

/-- The one prompt for the document. -/
def messages (b : Brief) : List Message := (Prompt.build b.names b.told).messages

end Brief

/-- A session whose pages are being read knows what was known before. -/
structure Session.Reading (s : Session) (b : Brief) : Prop where
  number : s.number = b.number
  source : s.source = b.source
  running : s.ocr.status = .running
  open_ : s.done = false

/-- A session whose pages are not being read knows what its model is to be
told. -/
structure Session.Fits (s : Session) (b : Brief) : Prop where
  number : s.number = b.number
  source : s.source = b.told
  read : s.ocr.status ≠ .running

/-- A command is for the session, and it asks the model nothing but the one
prompt. -/
structure Command.Fits (c : Command) (b : Brief) : Prop where
  owner : c.owner = b.number
  asks : ∀ owner client messages, c = .openReply owner client messages → messages = b.messages

/-- A turn with which the session and the command keep to a brief. -/
structure Turn.Fits (t : Turn) (b : Brief) : Prop where
  session : ∀ s ∈ t.bench.session, s.Fits b
  command : ∀ c ∈ t.command?, c.Fits b

/-- A session fits as well when it differs in nothing that its model is told. -/
theorem Session.Fits.congr {b : Brief} {s s' : Session} (h : s.Fits b)
    (hnumber : s'.number = s.number) (hsource : s'.source = s.source)
    (hocr : s'.ocr.status = s.ocr.status) : s'.Fits b := by
  refine ⟨hnumber.trans h.number, hsource.trans h.source, ?_⟩
  rw [hocr]
  exact h.read

/-- A session is the same as far as a brief is concerned. -/
structure Session.SeemsLike (s s' : Session) : Prop where
  number : s'.number = s.number
  source : s'.source = s.source
  ocr : s'.ocr.status = s.ocr.status
  done : s'.done = s.done

/-- A session is read for as before. -/
structure Session.ReadsLike (s s' : Session) : Prop extends s.SeemsLike s' where
  data : s'.data = s.data
  mime : s'.mime = s.mime
  maxPages : s'.maxPages = s.maxPages
  progress : s'.progress = s.progress

theorem Session.SeemsLike.rfl {s : Session} : s.SeemsLike s := ⟨by rfl, by rfl, by rfl, by rfl⟩

theorem Session.ReadsLike.rfl {s : Session} : s.ReadsLike s := ⟨.rfl, by rfl, by rfl, by rfl, by rfl⟩

theorem Session.SeemsLike.reading {b : Brief} {s s' : Session} (h : s.SeemsLike s')
    (hs : s.Reading b) : s'.Reading b :=
  ⟨h.number.trans hs.number, h.source.trans hs.source, h.ocr.trans hs.running,
    h.done.trans hs.open_⟩

theorem Session.SeemsLike.fits {b : Brief} {s s' : Session} (h : s.SeemsLike s') (hs : s.Fits b) :
    s'.Fits b := by
  refine ⟨h.number.trans hs.number, h.source.trans hs.source, ?_⟩
  rw [h.ocr]
  exact hs.read

/-- A command that is for the session and asks nothing. -/
theorem Command.fits_of_layer {b : Brief} {c : Command} (howner : c.owner = b.number)
    (h : ∀ owner client messages, c ≠ .openReply owner client messages) : c.Fits b :=
  ⟨howner, fun owner client messages heq => absurd heq (h owner client messages)⟩

/-! ## Stores -/

namespace Store

variable {store store' : Store}

theorem knownEntities_updateOcr {id : Int} {text table : String}
    (h : store.updateOcr id text table = .ok store') :
    store'.knownEntities = store.knownEntities := by
  obtain ⟨-, d, -, rfl⟩ := updateOcr_eq_ok_iff (p := ⟨text, table⟩).1 h
  rfl

theorem knownEntities_applyHints {id : Int} {hints : Hints} {r : Document × Store}
    (h : store.applyHints id hints = .ok r) : r.2.knownEntities = store.knownEntities := by
  obtain ⟨-, -, d, -, rfl⟩ := applyHints_eq_ok_iff.1 h
  rfl

end Store

namespace Workbench

variable {b : Brief} {w w' : Workbench} {s : Session}

theorem knownEntities_save (store : Store) (s : Session) :
    (save store s).1.knownEntities = store.knownEntities := by
  rw [save]
  split
  · rfl
  · rename_i store' hwritten
    have hfirst : store'.knownEntities = store.knownEntities := by
      split at hwritten
      · rw [← Except.ok.inj hwritten]
      · exact Store.knownEntities_updateOcr hwritten
    split
    · exact hfirst
    · split
      · exact hfirst
      · rename_i happlied
        exact (Store.knownEntities_applyHints happlied).trans hfirst

/-- Accepting keeps the names for a prompt. -/
theorem names_accept (w : Workbench) : w.accept.1.knownEntities.1 = w.knownEntities.1 := by
  rw [names_knownEntities, names_knownEntities, accept]
  split
  · rfl
  · split
    · rfl
    · rename_i s _ _
      split
      · rename_i hstore
        rw [hstore]
      · rename_i store hstore
        have hsaved := knownEntities_save store s
        rw [hstore, Option.map_some, ← hsaved]
        rcases save store s with ⟨store', outcome⟩
        cases outcome with
        | ok _ => rfl
        | error e =>
          dsimp only
          split
          · rfl
          · rfl

/-- No turn changes the names for a prompt. -/
theorem names_handle (w : Workbench) (now : Float) (d : Delivery) :
    (w.handle now d).bench.knownEntities.1 = w.knownEntities.1 := by
  by_cases haccept : d = .key .accept
  · rw [haccept, ← accept_eq_handle]
    exact names_accept w
  · rw [names_knownEntities, names_knownEntities, (spares_handle w now haccept).store]

/-! ## Turns -/

theorem fits_next (w : Workbench) (s : Session) (h : s.Fits b) {c : Command} (hc : c.Fits b) :
    Turn.Fits ⟨w.withSession s, .ok (some c)⟩ b := by
  refine ⟨fun s' hs' => ?_, fun c' hc' => ?_⟩
  · obtain rfl := Option.some.inj hs'
    exact h
  · obtain rfl := Option.some.inj hc'
    exact hc

theorem fits_idle (w : Workbench) (s : Session) (h : s.Fits b) (e? : Option Fault) :
    Turn.Fits ⟨w.withSession s, e?.elim (.ok none) .error⟩ b := by
  refine ⟨fun s' hs' => ?_, fun c hc => ?_⟩
  · obtain rfl := Option.some.inj hs'
    exact h
  · cases e? with
    | none => cases hc
    | some e => cases hc

/-- A turn after which the session is gone, or the one before, and that gives
nothing out. -/
theorem fits_of_session {t : Turn} (h : ∀ s ∈ w.session, s.Fits b)
    (hsession : t.bench.session = none ∨ t.bench.session = w.session)
    (hcommand : t.command? = none) : t.Fits b := by
  refine ⟨fun s hs => ?_, fun c hc => by cases hcommand.symm.trans hc⟩
  rcases hsession with hnone | hsame
  · cases hnone.symm.trans hs
  · exact h s (hsame ▸ hs)

theorem fits_startModel (hnames : w.knownEntities.1 = b.names) (h : s.Fits b) (now : Float)
    (client : ChatClient) : (w.startModel now client s).Fits b := by
  have hmessages : (Prompt.build w.knownEntities.1 (s.modelStarted now w.modelLabel).source).messages
      = b.messages := by
    show (Prompt.build w.knownEntities.1 s.source).messages = _
    rw [hnames, h.source]
    rfl
  refine fits_next w.knownEntities.2 (s.modelStarted now w.modelLabel) (h.congr rfl rfl rfl)
    ⟨h.number, fun owner client' messages heq => ?_⟩
  rw [← (Command.openReply.inj heq).2.2]
  exact hmessages

theorem fits_afterPages (hnames : w.knownEntities.1 = b.names) (h : s.Fits b) (now : Float) :
    (w.afterPages now s).Fits b := by
  rcases afterPages_cases w now s with ⟨client, -, -, heq⟩ | ⟨-, heq⟩
  · rw [heq]
    exact fits_startModel hnames h now client
  · rw [heq]
    exact fits_idle w { s with done := true } (h.congr rfl rfl rfl) none

theorem source_pagesRead (s : Session) (now : Float) (p : Page) :
    (s.pagesRead now p).source = s.source.withPages (some (.ok p)) := by
  simp only [Session.source, Session.pagesRead, DocumentSource.withPages]
  rfl

/-- What was read from the pages is what the brief says. -/
theorem fits_pagesRead (h : s.Reading b) {p : Page} (houtcome : b.outcome = some (.ok p))
    (now : Float) : (s.pagesRead now p).Fits b := by
  refine ⟨h.number, ?_, StepStatus.noConfusion⟩
  rw [source_pagesRead, h.source, Brief.told, houtcome]

theorem fits_pagesFailed (h : s.Reading b) {e : Fault} (houtcome : b.outcome = some (.error e))
    (now : Float) : (s.pagesFailed now e).Fits b := by
  refine ⟨h.number, ?_, StepStatus.noConfusion⟩
  show s.source = b.told
  rw [h.source, Brief.told, houtcome]
  rfl

/-- The last event brings what reading the pages comes to. -/
theorem fits_onProgress (hnames : w.knownEntities.1 = b.names) (h : s.Reading b)
    {outcome : Except Fault Page} (houtcome : b.outcome = some outcome) {p : Progress}
    (hdone : p.done = true) (hcarries : p.Carries outcome) (now : Float) :
    (w.onProgress now s p).Fits b := by
  cases outcome with
  | ok page =>
    obtain ⟨htext, htable, hfault⟩ := hcarries
    have hpage : (⟨p.text, p.table⟩ : Page) = page := by rw [htext, htable]
    rw [onProgress, hfault]
    dsimp only
    rw [if_pos hdone, hpage]
    exact fits_afterPages hnames (fits_pagesRead h houtcome now) now
  | error e =>
    rw [onProgress, hcarries.2.2]
    exact fits_afterPages hnames (fits_pagesFailed h houtcome now) now

/-- An event before the last one leaves the session waiting for the next. -/
theorem onProgress_of_early (w : Workbench) (s : Session) {p : Progress} (hdone : p.done = false)
    (hfault : p.fault = none) (now : Float) :
    w.onProgress now s p =
      ⟨w.withSession (s.pagesMoved p), .ok (some (.awaitProgress s.number s.progress))⟩ := by
  rw [onProgress, hfault]
  dsimp only
  rw [if_neg (by rw [hdone]; exact Bool.false_ne_true)]

theorem fits_replyGrown (h : s.Fits b) (piece : String) : (s.replyGrown piece).Fits b := by
  obtain ⟨received, logs, hgrown, -⟩ := replyGrown_eq s piece
  rw [hgrown]
  exact h.congr rfl rfl rfl

theorem fits_readReply (w : Workbench) (h : s.Fits b) : (w.readReply s).Fits b := by
  rw [readReply]
  cases Reply.read s.replyText with
  | ok hints => exact fits_idle _ (s.replyRead hints) (h.congr rfl rfl rfl) none
  | error failure =>
    cases failure with
    | malformed m => exact fits_idle _ (s.replyRefused m) (h.congr rfl rfl rfl) none
    | overflow => exact fits_idle _ s h (some .overflow)

theorem fits_onChunk (w : Workbench) (h : s.Fits b) (now : Float) (c : Chunk) :
    (w.onChunk now s c).Fits b := by
  rw [onChunk]
  split
  · exact fits_idle w (s.replyFailed now _) (h.congr rfl rfl rfl) none
  · have hgrown := fits_replyGrown h c.text
    dsimp only
    split
    · exact fits_readReply w (hgrown.congr rfl rfl rfl)
    · exact fits_next w (s.replyGrown c.text) hgrown
        (Command.fits_of_layer hgrown.number fun _ _ _ => Command.noConfusion)

theorem fits_rerun (hnames : w.knownEntities.1 = b.names) (h : ∀ s ∈ w.session, s.Fits b)
    (now : Float) : (w.rerun now).Fits b := by
  have hidle : Turn.Fits ⟨w, .ok none⟩ b := fits_of_session h (Or.inr rfl) rfl
  rw [rerun]
  split
  · rename_i s client hs _
    split
    · have hreset : s.modelReset.Fits b := (h s hs).congr rfl rfl rfl
      exact fits_startModel hnames hreset now client
    · exact hidle
  · exact hidle

theorem fits_onKey (hnames : w.knownEntities.1 = b.names) (h : ∀ s ∈ w.session, s.Fits b)
    (now : Float) (k : Key) : (w.onKey now k).Fits b := by
  have hview : ∀ f : Session → Session, (∀ s, (f s).number = s.number) →
      (∀ s, (f s).source = s.source) → (∀ s, (f s).ocr = s.ocr) →
      Turn.Fits ⟨w.onSession f, .ok none⟩ b := by
    intro f hnumber hsource hocr
    refine ⟨fun s hs => ?_, nofun⟩
    obtain ⟨s', hs', rfl⟩ := Option.map_eq_some_iff.1 hs
    exact (h s' hs').congr (hnumber s') (hsource s') (congrArg _ (hocr s'))
  unfold onKey
  split
  · exact fits_of_session h (Or.inl (frames_cancel w).2.2.1) rfl
  · exact fits_rerun hnames h now
  · exact fits_of_session h (session_accept w) (command?_map_none _ _)
  · exact hview _ (fun _ => rfl) (fun _ => rfl) fun _ => rfl
  · exact hview _ (fun _ => rfl) (fun _ => rfl) fun _ => rfl
  · exact hview _ (fun _ => rfl) (fun _ => rfl) fun _ => rfl
  · exact fits_of_session h (Or.inr rfl) rfl

/-- Once its pages are read, a session keeps to the brief whatever is
delivered beside the events of its worker. -/
theorem fits_handle (hnames : w.knownEntities.1 = b.names) (h : ∀ s ∈ w.session, s.Fits b)
    {d : Delivery} (hd : ∀ s ∈ w.session, ∀ p, d ≠ .progress s.number p) (now : Float) :
    (w.handle now d).Fits b := by
  have hdropped : Turn.Fits ⟨w.drop d, .ok none⟩ b :=
    fits_of_session h (Or.inr (drop_frames w d).2) rfl
  have htake : ∀ s ∈ w.session, (∀ owner p, d = .progress owner p → s.number = owner) →
      (w.take now s d).Fits b := by
    intro s hs howner
    have hfits := h s hs
    cases d with
    | progress owner p => exact absurd (by rw [howner owner p rfl]) (hd s hs p)
    | replyOpened owner stream =>
      exact fits_next w { s with reply := some stream } (hfits.congr rfl rfl rfl)
        (Command.fits_of_layer hfits.number fun _ _ _ => Command.noConfusion)
    | chunk owner c => exact fits_onChunk w hfits now c
    | key k => exact fits_onKey hnames h now k
    | other owner => exact fits_of_session h (Or.inr rfl) rfl
  unfold handle
  split
  · rename_i s howner hs
    refine htake s hs fun owner p hp => ?_
    rw [hp] at howner
    cases howner
  · exact fits_of_session h (Or.inr rfl) rfl
  · rename_i owner s howner hs
    split
    · rename_i hmine
      refine htake s hs fun owner' p hp => ?_
      rw [hp] at howner
      exact hmine.trans (Option.some.inj howner).symm
    · exact hdropped
  · exact hdropped

/-! ## Keys -/

/-- While the pages are read, a key closes the session or leaves it to that. -/
theorem readsLike_key (hs : w.session = some s) (hopen : s.done = false) (now : Float) (k : Key) :
    (w.handle now (.key k)).command? = none ∧
      ∀ s' ∈ (w.handle now (.key k)).bench.session, s.ReadsLike s' := by
  have hsame : ∀ s' ∈ w.session, s.ReadsLike s' := by
    intro s' hs'
    obtain rfl := Option.some.inj (hs.symm.trans hs')
    exact .rfl
  have hview : ∀ f : Session → Session, (∀ s : Session, s.ReadsLike (f s)) →
      ∀ s' ∈ (w.onSession f).session, s.ReadsLike s' := by
    intro f hf s' hs'
    rw [onSession, hs] at hs'
    obtain rfl := Option.some.inj hs'
    exact hf s
  rw [handle_key_of_some hs]
  unfold onKey
  rw [hs]
  cases k with
  | escape =>
    refine ⟨rfl, fun s' hs' => ?_⟩
    cases (frames_cancel w).2.2.1.symm.trans hs'
  | rerun =>
    have hidle : w.rerun now = ⟨w, .ok none⟩ := by
      rw [rerun, hs]
      cases w.clientInUse with
      | none => rfl
      | some client => simp [canRerun, hopen]
    dsimp only
    rw [hidle]
    exact ⟨rfl, hsame⟩
  | accept =>
    have hidle : w.accept = (w, .ok false) := by simp [accept, hs, Session.canAccept, hopen]
    dsimp only
    rw [hidle]
    exact ⟨rfl, hsame⟩
  | down => exact ⟨rfl, hview _ fun s => ⟨⟨rfl, rfl, rfl, rfl⟩, rfl, rfl, rfl, rfl⟩⟩
  | up => exact ⟨rfl, hview _ fun s => ⟨⟨rfl, rfl, rfl, rfl⟩, rfl, rfl, rfl, rfl⟩⟩
  | enter => exact ⟨rfl, hview _ fun s => ⟨⟨rfl, rfl, rfl, rfl⟩, rfl, rfl, rfl, rfl⟩⟩
  | other => exact ⟨rfl, hsame⟩

end Workbench
end Intake
