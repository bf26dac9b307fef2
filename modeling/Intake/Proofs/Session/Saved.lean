import Intake.Proofs.Session.Acceptance
import Intake.Proofs.Session.Heard

/-!
# Saved results

Only whole and accepted results are stored, and each session's at most once.

There are four groups.

* Changes.  `Store.Changes` says that one document was changed by a function;
  `changes_of_save` says which function saving is.
* Acceptances.  `accept_of_saved?` says what an acceptance that succeeds
  leaves behind.
* Sources.  `Entry.PagesOf` and `Office.ReplyOf` say where the results of a
  session come from.
* Results.  `savedOnce_of_chronicle` says that no session is saved twice, and
  `stored_of_chronicle` is the result.
-/

namespace Intake

/-! ## Changes -/

/-- A document with the results of a session.  What was read from the pages
is written when there is any of it. -/
def Document.withResults (d : Document) (pages : Page) (hints : Option Hints) : Document :=
  let read := if pages.text.isEmpty && pages.table.isEmpty then d else d.withPages pages
  match hints with
  | none => read
  | some h => read.withHints h

namespace Store

variable {store store' store'' : Store} {id : Int} {f g : Document → Document}

/-- The one document is changed, where it is there, and all others are kept. -/
def Changes (store store' : Store) (id : Int) (f : Document → Document) : Prop :=
  ∀ id', store'.find? id' = if id' = id then (store.find? id').map f else store.find? id'

theorem changes_self (store : Store) (id : Int) : store.Changes store id fun d => d := by
  intro id'
  rw [Option.map_id']
  split
  · rfl
  · rfl

theorem Changes.trans (h : store.Changes store' id f) (h' : store'.Changes store'' id g) :
    store.Changes store'' id fun d => g (f d) := by
  intro id'
  rw [h' id', h id']
  split
  · rw [Option.map_map]
    rfl
  · rfl

theorem changes_put {d : Document} (hd : store.find? id = some d) (hid : (f d).id = d.id) :
    store.Changes (store.put (f d)) id f := by
  intro id'
  have hid' : (f d).id = id := hid.trans (id_of_find? hd)
  split
  · rename_i heq
    rw [heq, hd, Option.map_some]
    conv_lhs => rw [← hid']
    exact find?_put store (f d)
  · rename_i hne
    exact find?_put_of_ne store (hid'.symm ▸ hne)

theorem changes_of_updateOcr {p : Page} (h : store.updateOcr id p.text p.table = .ok store') :
    store.Changes store' id (·.withPages p) := by
  obtain ⟨-, d, hd, rfl⟩ := updateOcr_eq_ok_iff.1 h
  exact changes_put (f := (·.withPages p)) hd rfl

theorem changes_of_applyHints {hints : Hints} {r : Document × Store}
    (h : store.applyHints id hints = .ok r) : store.Changes r.2 id (·.withHints hints) := by
  obtain ⟨-, -, d, hd, rfl⟩ := applyHints_eq_ok_iff.1 h
  exact changes_put (f := (·.withHints hints)) hd rfl

end Store

namespace Workbench

variable {s : Session}

/-- The first write, which is left out where nothing was read from the
pages. -/
theorem changes_of_pages {store store' : Store}
    (h : (if (s.pages.text.isEmpty && s.pages.table.isEmpty) = true then .ok store
      else store.updateOcr s.document s.pages.text s.pages.table) = Except.ok store') :
    store.Changes store' s.document (·.withResults s.pages none) := by
  simp only [Document.withResults]
  split at h
  · rename_i hempty
    obtain rfl := Except.ok.inj h
    simp only [hempty, if_true]
    exact Store.changes_self store s.document
  · rename_i hheld
    simp only [hheld]
    exact Store.changes_of_updateOcr h

/-- What saving the results of a session makes of its document. -/
theorem changes_of_save {store store' : Store} (hsave : save store s = (store', .ok ())) :
    store.Changes store' s.document (·.withResults s.pages s.hints) := by
  rw [save] at hsave
  split at hsave
  · cases hsave
  · rename_i read hread
    have hpages := changes_of_pages hread
    cases hhints : s.hints with
    | none =>
      rw [hhints] at hsave
      cases hsave
      exact hpages
    | some hints =>
      rw [hhints] at hsave
      dsimp only at hsave
      cases happly : read.applyHints s.document hints with
      | error e =>
        rw [happly] at hsave
        cases hsave
      | ok r =>
        rw [happly] at hsave
        cases hsave
        exact hpages.trans (Store.changes_of_applyHints happly)

/-! ## Acceptances -/

variable {w : Workbench}

theorem accept_of_save_ok (hs : w.session = some s) (haccept : s.canAccept = true)
    {store store' : Store} (hstore : w.store = some store)
    (hsave : save store s = (store', .ok ())) :
    w.accept = ({ w with store := some store', session := none }, .ok true) := by
  rw [accept, hs]
  simp [haccept, hstore, hsave]

theorem accept_of_store_eq_none (hs : w.session = some s) (haccept : s.canAccept = true)
    (hstore : w.store = none) : w.accept = ({ w with session := none }, .ok true) := by
  rw [accept, hs]
  simp [haccept, hstore]

/-- The results of a session are saved only while they may be. -/
theorem exists_of_saved? {n : Nat} (hsaved : w.saved? = some n) :
    w.accept.2 = .ok true ∧ ∃ s, w.session = some s ∧ s.number = n ∧ s.canAccept = true := by
  have hok : w.accept.2 = .ok true := by
    rw [saved?] at hsaved
    split at hsaved
    · assumption
    · cases hsaved
  rw [saved?, hok] at hsaved
  obtain ⟨s, hs, hnumber⟩ := Option.map_eq_some_iff.1 hsaved
  refine ⟨hok, s, hs, hnumber, Decidable.byContradiction fun hnot => ?_⟩
  rw [accept, hs] at hok
  dsimp only at hok
  rw [if_pos (by simpa using hnot)] at hok
  cases hok

theorem exists_of_accept_store_ne (h : w.accept.1.store ≠ w.store) :
    ∃ s, w.session = some s ∧ s.canAccept = true := by
  cases hs : w.session with
  | none =>
    rw [accept, hs] at h
    exact absurd rfl h
  | some s =>
    refine ⟨s, rfl, Decidable.byContradiction fun hnot => h ?_⟩
    rw [accept, hs]
    dsimp only
    rw [if_pos (by simpa using hnot)]

/-- An acceptance that succeeds closes the session and writes its results
into its document. -/
theorem accept_of_saved? {n : Nat} (hsaved : w.saved? = some n) :
    ∃ s, w.session = some s ∧ s.number = n ∧ s.canAccept = true ∧ w.accept.1.session = none ∧
      ∀ id, w.accept.1.document? id = if id = s.document then
        (w.document? id).map (·.withResults s.pages s.hints) else w.document? id := by
  obtain ⟨hok, s, hs, hnumber, haccept⟩ := exists_of_saved? hsaved
  refine ⟨s, hs, hnumber, haccept, ?_⟩
  cases hstore : w.store with
  | none =>
    rw [accept_of_store_eq_none hs haccept hstore]
    refine ⟨rfl, fun id => ?_⟩
    simp [document?, hstore]
  | some store =>
    rcases hsave : save store s with ⟨store', outcome⟩
    cases outcome with
    | error e => exact absurd hok (accept_of_save_error hs haccept hstore hsave).1
    | ok _ =>
      rw [accept_of_save_ok hs haccept hstore hsave]
      refine ⟨rfl, fun id => ?_⟩
      rw [document?, document?, hstore]
      exact changes_of_save hsave id

end Workbench
/-! ## Sources -/

/-- What was read from the pages of a session is what the last event for it
brought.  Where the pages are not read, nothing was heard of them. -/
structure Entry.PagesOf (h : List Entry) (s : Session) (pages : Page) : Prop where
  read : s.hasOcr = true → ∃ p, EndsWith Progress.IsLast (events s.number h) p ∧
    p.fault = none ∧ pages = ⟨p.text, p.table⟩
  unread : s.hasOcr = false → events s.number h = [] ∧ pages = {}

namespace Office

/-- The chunks of the latest reply for a session.  At some point of the
chronicle its model was asked, with nothing else under way for it; it was not
asked again, and these chunks were handled since. -/
def LatestReply (start : Office) (h : List Entry) (o : Office) (number : Nat) (cs : List Chunk) :
    Prop :=
  ∃ earlier ask later o₁ o₂, h = earlier ++ ask :: later ∧
    Chronicle start earlier o₁ ∧ Move o₁ ask o₂ ∧ Chronicle o₂ later o ∧
    ask.asks number ∧ o₂.inFlight number = 1 ∧ (∀ e ∈ later, ¬ e.asks number) ∧
    Entry.chunks number later = cs

/-- The hints of a session are those of its latest reply as a whole.  Where
no model is asked there are none. -/
structure HintsOf (start : Office) (h : List Entry) (o : Office) (s : Session)
    (hints : Option Hints) : Prop where
  replied : s.hasLlm = true → ∃ cs found, LatestReply start h o s.number cs ∧
    Reply.Whole cs found ∧ hints = some found
  unasked : s.hasLlm = false → hints = none

variable {start o o' : Office} {h : List Entry} {e : Entry} {s : Session}

/-- Nothing but its question is under way for a session whose model is
asked. -/
theorem inFlight_of_asks (hrecorded : o.Recorded h) (hmove : Move o e o') {number : Nat}
    (hasks : e.asks number) : o'.inFlight number = 1 := by
  obtain ⟨c, hc, hcasks⟩ := (Option.any_eq_true _ _).1 hasks
  obtain rfl := Command.owner_of_asks hcasks
  obtain ⟨hrecorded', hfollows⟩ := recorded_move hrecorded hmove
  obtain ⟨s, hs, hnumber⟩ := hfollows.attended c hc
  obtain ⟨k?, -, hworks⟩ := (hrecorded'.sound.session s hs).stands
  rw [hnumber] at hworks
  have hpos : 0 < o'.items.countP fun task => task.owner? = some c.owner :=
    List.countP_pos_iff.2 ⟨.fresh c, mem_items_of_command hmove hc, by simp [Task.owner?]⟩
  have hle := hworks.le.trans Option.length_toList_le
  rw [inFlight_eq_countP]
  omega

theorem latestReply_of_eq_some {before : List Entry} (hstart : start.Recorded before)
    (hrun : Chronicle start h o) {number : Nat} {cs : List Chunk}
    (hreply : Entry.latestReply number h = some cs) : LatestReply start h o number cs := by
  obtain ⟨earlier, ask, later, rfl, hask, hlater, hchunks⟩ := Entry.split_of_latestReply hreply
  obtain ⟨o₁, o₂, hearlier, hmove, hrest⟩ := hrun.split
  have hflight := inFlight_of_asks (recorded_append hstart hearlier) hmove hask
  exact ⟨earlier, ask, later, o₁, o₂, rfl, hearlier, hmove, hrest, hask, hflight, hlater, hchunks⟩

/-- Where the results of a session come from that may be saved. -/
theorem sources_of_canAccept (hstart : start.Recorded []) (hrun : Chronicle start h o)
    (hs : o.bench.session = some s) (haccept : s.canAccept = true) :
    Entry.PagesOf h s s.pages ∧ HintsOf start h o s s.hints ∧ o.inFlight s.number = 0 := by
  have hrecorded := recorded_of_chronicle hstart hrun
  obtain ⟨htells, -⟩ := hrecorded.tells s hs
  obtain ⟨k?, hstands, hworks⟩ := (hrecorded.sound.session s hs).stands
  have hall := (Session.coherent_of_stands hstands).canAccept_iff.1 haccept
  have hdone : s.done = true := by
    simp only [Session.canAccept, Bool.and_eq_true] at haccept
    exact haccept.1.1
  obtain rfl := Session.eq_none_of_done hstands hdone
  have hstanding : s.Standing .lt .lt true := hstands
  refine ⟨⟨fun hocr => ?_, fun hocr => ?_⟩, ⟨fun hllm => ?_, fun hllm => ?_⟩, ?_⟩
  · exact htells.pages.read (hall .ocr ((Session.mem_active_iff s .ocr).2 hocr))
  · have hpending : s.ocr.status = .pending := by
      have hfits := hstanding.ocr
      rw [hocr] at hfits
      exact hfits
    obtain ⟨htext, htable⟩ := hstanding.pages (by rw [hpending]; exact StepStatus.noConfusion)
    exact ⟨htells.pages.waiting hpending, congrArg₂ Page.mk htext htable⟩
  · obtain ⟨cs, found, hreply, hfound, hwhole⟩ :=
      htells.reply.replied (hall .llm ((Session.mem_active_iff s .llm).2 hllm))
    exact ⟨cs, found, latestReply_of_eq_some hstart hrun hreply, hwhole, hfound⟩
  · have hpending : s.llm.status = .pending := by
      have hfits := hstanding.llm
      rw [hllm] at hfits
      exact hfits
    refine Option.not_isSome_iff_eq_none.1 fun hsome => ?_
    exact StepStatus.noConfusion (hpending.symm.trans (hstanding.hints.1 hsome))
  · rw [inFlight_eq_countP]
    exact countP_eq_zero_of_idle (works_none_iff_idle.1 hworks)

/-! ## Results -/

theorem bench_of_acceptance (hmove : Move o e o') (haccept : e.what.IsAcceptance) :
    o'.bench = o.bench.accept.1 := by
  rcases haccept with hwhat | hwhat
  · cases hmove with
    | accepts => rfl
    | _ => cases hwhat
  · cases hmove with
    | handles now hd =>
      cases hwhat
      exact (Workbench.accept_eq_handle o.bench now).symm
    | _ => cases hwhat

theorem saved?_of_saved (hmove : Move o e o') {n : Nat} (hsaved : e.saved = some n) :
    e.what.IsAcceptance ∧ o.bench.saved? = some n := by
  cases hmove with
  | accepts => exact ⟨Or.inl rfl, hsaved⟩
  | @handles i d now hd =>
    have hby : o.bench.savedBy? d = some n := hsaved
    unfold Workbench.savedBy? at hby
    split at hby
    · exact ⟨Or.inr rfl, hby⟩
    · cases hby
  | _ => cases hsaved

/-- Sessions whose results were saved are closed. -/
structure SavedOnce (o : Office) (h : List Entry) : Prop where
  nodup : (h.filterMap (·.saved)).Nodup
  closed : ∀ n ∈ h.filterMap (·.saved), n ≤ o.bench.opened ∧
    ∀ s, o.bench.session = some s → s.number ≠ n

theorem savedOnce_move (hrecorded : o.Recorded h) (hsaved : o.SavedOnce h) (hmove : Move o e o') :
    o'.SavedOnce (h ++ [e]) := by
  have hopened := (spares_move hmove).2
  have hfollows := (recorded_move hrecorded hmove).2
  have hclosed : ∀ n ∈ h.filterMap (·.saved), n ≤ o'.bench.opened ∧
      ∀ s, o'.bench.session = some s → s.number ≠ n := by
    intro n hn
    obtain ⟨hle, hne⟩ := hsaved.closed n hn
    refine ⟨hle.trans hopened, fun s hs => ?_⟩
    rcases hfollows.number s hs with ⟨s', hs', hnumber⟩ | hlt
    · rw [hnumber]
      exact hne s' hs'
    · omega
  have hsnoc := filterMap_snoc (fun e : Entry => e.saved) h e
  cases hn : e.saved with
  | none =>
    rw [hn, Option.toList_none, List.append_nil] at hsnoc
    refine ⟨?_, ?_⟩
    · rw [hsnoc]
      exact hsaved.nodup
    · rw [hsnoc]
      exact hclosed
  | some n =>
    obtain ⟨haccept, hsaves⟩ := saved?_of_saved hmove hn
    obtain ⟨s, hs, rfl, -, hnone, -⟩ := Workbench.accept_of_saved? hsaves
    rw [← bench_of_acceptance hmove haccept] at hnone
    rw [hn, Option.toList_some] at hsnoc
    have hle := (hrecorded.sound.session s hs).number_le
    have hnew : s.number ∉ h.filterMap (·.saved) :=
      fun hmem => (hsaved.closed s.number hmem).2 s hs rfl
    refine ⟨?_, ?_⟩
    · rw [hsnoc]
      exact hsaved.nodup.append (List.nodup_singleton _) (List.disjoint_singleton.2 hnew)
    · rw [hsnoc]
      refine List.forall_mem_append.2 ⟨hclosed, List.forall_mem_singleton.2 ⟨by omega, ?_⟩⟩
      intro s' hs'
      cases hnone.symm.trans hs'

theorem savedOnce_of_chronicle (hstart : start.Recorded []) (hrun : Chronicle start h o) :
    o.SavedOnce h := by
  induction hrun with
  | nil => exact ⟨List.nodup_nil, fun _ hn => (List.not_mem_nil hn).elim⟩
  | snoc hrun hmove ih =>
    exact savedOnce_move (recorded_of_chronicle hstart hrun) ih hmove

/-- Only whole and accepted results are stored.  The store changes only when
the workbench is asked to save the results of a session that may be accepted,
whatever is opened, pressed, cancelled or delivered.  The results of each
session are saved at most once.  What is saved is what the last event for the
session brought from its pages, and the hints of its latest reply as a whole;
then nothing is left under way for the session, and no other document is
changed. -/
theorem stored_of_chronicle {store : Option Store} {client : Option ChatClient}
    {settings : Settings} {capabilities : Capabilities}
    (hrun : Chronicle (.start store client settings capabilities) h o) (hmove : Move o e o') :
    (o'.bench.store ≠ o.bench.store → e.what.IsAcceptance ∧ o'.bench = o.bench.accept.1 ∧
      ∃ s, o.bench.session = some s ∧ s.canAccept = true) ∧
    ((h ++ [e]).filterMap (·.saved)).Nodup ∧
    ∀ n, e.saved = some n → ∃ s pages hints,
      o.bench.session = some s ∧ s.number = n ∧ s.canAccept = true ∧
      o'.bench.session = none ∧ o.inFlight n = 0 ∧ Entry.PagesOf h s pages ∧
      HintsOf (.start store client settings capabilities) h o s hints ∧
      ∀ id, o'.bench.document? id = if id = s.document then
        (o.bench.document? id).map (·.withResults pages hints) else o.bench.document? id := by
  have hstart := recorded_start store client settings capabilities
  have hrecorded := recorded_of_chronicle hstart hrun
  refine ⟨fun hchanged => ?_, ?_, fun n hn => ?_⟩
  · have haccept : e.what.IsAcceptance :=
      Classical.byContradiction fun hnot => hchanged ((spares_move hmove).1 hnot)
    have hbench := bench_of_acceptance hmove haccept
    rw [hbench] at hchanged
    exact ⟨haccept, hbench, Workbench.exists_of_accept_store_ne hchanged⟩
  · exact (savedOnce_move hrecorded (savedOnce_of_chronicle hstart hrun) hmove).nodup
  · obtain ⟨haccept, hsaves⟩ := saved?_of_saved hmove hn
    obtain ⟨s, hs, rfl, hmay, hnone, hdocuments⟩ := Workbench.accept_of_saved? hsaves
    obtain ⟨hpages, hhints, hidle⟩ := sources_of_canAccept hstart hrun hs hmay
    rw [bench_of_acceptance hmove haccept]
    exact ⟨s, s.pages, s.hints, hs, rfl, hmay, hnone, hidle, hpages, hhints, hdocuments⟩

/-- An office after its oldest delivery was handled. -/
def handleNext (o : Office) : Office :=
  match o.loop.queue with
  | [] => o
  | d :: _ => (o.without 0).after (o.bench.handle 0 d)

/-- An office after its oldest command was carried on in a workshop and the
oldest delivery was handled. -/
def serve (s : Workshop) (o : Office) : Office :=
  match o.loop.running with
  | [] => o
  | task :: _ => (o.carry 0 (Workshop.proceed task { s with bench := o.bench })).handleNext

/-- An office after a key was pressed and the oldest delivery was handled. -/
def strike (k : Key) (o : Office) : Office := handleNext { o with loop := o.loop.send (.key k) }

theorem exists_chronicle_handleNext (hrun : ∃ h, Chronicle start h o) :
    ∃ h, Chronicle start h o.handleNext := by
  obtain ⟨h, hrun⟩ := hrun
  rw [handleNext]
  split
  · exact ⟨h, hrun⟩
  · rename_i d rest hqueue
    have hd : o.loop.queue[0]? = some d := by rw [hqueue, List.getElem?_cons_zero]
    exact ⟨_, hrun.snoc (.handles 0 hd)⟩

theorem exists_chronicle_serve (hrun : ∃ h, Chronicle start h o) (s : Workshop) :
    ∃ h, Chronicle start h (o.serve s) := by
  rw [serve]
  split
  · exact hrun
  · rename_i task rest hrunning
    obtain ⟨h, hrun⟩ := hrun
    have htask : o.loop.running[0]? = some task := by rw [hrunning, List.getElem?_cons_zero]
    have hcarry := hrun.snoc (.carries { s with bench := o.bench } htask rfl)
    exact exists_chronicle_handleNext ⟨_, hcarry⟩

theorem exists_chronicle_strike (hrun : ∃ h, Chronicle start h o) (k : Key) :
    ∃ h, Chronicle start h (o.strike k) := by
  obtain ⟨h, hrun⟩ := hrun
  exact exists_chronicle_handleNext ⟨_, hrun.snoc (.presses k)⟩

/-- An office with one image, a model and all tools. -/
def gallery : Office :=
  .start (some { documents := [{ id := 1, fileName := "a.png", mimeType := "image/png" }] })
    (some { model := "m" }) { model := "m" } ⟨true, true, true⟩

/-- The turn that opens the image. -/
def imageOpened : Turn := Workshop.turnOf { bench := gallery.bench, surveyed := true }
  (Workshop.open 1 "a.png" [1] "image/png" "")

/-- A workshop whose worker has read the image. -/
def readingRoom : Workshop where
  bench := gallery.bench
  workers := [{ owner := 1, stage := .over, since := 0
                events := { arrived := [.result ⟨"text", "table"⟩] } }]

/-- A workshop whose model answers. -/
def answering : Workshop where
  bench := gallery.bench
  site := { desk := { replies := [{ answer := .streamed [] }] } }

/-- A workshop whose model says something. -/
def saying (c : Chunk) : Workshop where
  bench := gallery.bench
  streams := [{ supply := .chunks [.ok c] }]

/-- The office in which the image was read and the model has replied in two
pieces. -/
def scannedOnce : Office :=
  (gallery.after imageOpened |>.serve { bench := gallery.bench, stepwise := true }
    |>.serve readingRoom |>.serve answering |>.serve (saying { text := "\x7b\"summary\":" })
    |>.serve (saying { text := "\"first\"\x7d", done := true }))

/-- The office in which the model was asked again and has replied anew. -/
def scannedTwice : Office :=
  (scannedOnce.strike .down |>.strike .rerun |>.serve answering
    |>.serve (saying { text := "\x7b\"summary\":\"second\"\x7d", done := true }))

theorem exists_chronicle_scannedTwice : ∃ h, Chronicle gallery h scannedTwice := by
  have hopened : Chronicle gallery _ (gallery.after imageOpened) :=
    Chronicle.nil.snoc (.opens _ (.given 1 "a.png" [1] "image/png" "") rfl)
  apply_rules [exists_chronicle_serve, exists_chronicle_strike]
  exact ⟨_, hopened⟩

theorem stored_scannedTwice : ∃ h e o', Chronicle gallery h scannedTwice ∧
    Move scannedTwice e o' ∧ e.saved = some 1 ∧
    (o'.bench.store ≠ scannedTwice.bench.store → e.what.IsAcceptance ∧
      o'.bench = scannedTwice.bench.accept.1 ∧
      ∃ s, scannedTwice.bench.session = some s ∧ s.canAccept = true) ∧
    ((h ++ [e]).filterMap (·.saved)).Nodup ∧
    ∀ n, e.saved = some n → ∃ s pages hints,
      scannedTwice.bench.session = some s ∧ s.number = n ∧ s.canAccept = true ∧
      o'.bench.session = none ∧ scannedTwice.inFlight n = 0 ∧ Entry.PagesOf h s pages ∧
      HintsOf gallery h scannedTwice s hints ∧
      ∀ id, o'.bench.document? id = if id = s.document then
        (scannedTwice.bench.document? id).map (·.withResults pages hints)
          else scannedTwice.bench.document? id := by
  obtain ⟨h, hrun⟩ := exists_chronicle_scannedTwice
  have hsaved : scannedTwice.bench.saved? = some 1 := by decide +kernel
  exact ⟨h, _, _, hrun, .accepts, hsaved, stored_of_chronicle hrun .accepts⟩

/-- The second reply is stored, not the first. -/
example : (scannedTwice.bench.accept.1.document? 1).map (fun d => (d.ocrText, d.notes)) =
    some ("text", Text.Prose.ofString "second") := by decide +kernel

end Office
end Intake
