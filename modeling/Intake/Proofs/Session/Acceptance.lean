import Intake.Session.Workbench

/-!
# Accepted results

The results of a session are saved by two writes, first what was read from
the pages and then the hints.  Nothing undoes the first when the second
fails.

There are three groups.

* Accesses.  `updateOcr_eq_ok_iff` and `applyHints_eq_ok_iff` say when the
  two writes succeed, and what they write.
* Saving.  `Store.Tears` is the condition under which saving breaks off
  between the writes; `save_of_tears` and `save_of_not_tears` say what is
  written then and otherwise.
* Accepting.  `accept_unsaved` is the result: an acceptance that fails
  leaves the session and all documents as they were, but for the one
  document whose saving is torn.
-/

namespace Intake

/-! ## Accesses -/

/-- A document with the text and the token table read from its pages. -/
def Document.withPages (d : Document) (p : Page) : Document :=
  { d with ocrText := p.text, ocrTable := p.table }

namespace Store

variable {store : Store} {s : Session} {d : Document}

theorem id_of_find? {id : Int} (h : store.find? id = some d) : d.id = id := by
  simpa using List.find?_some h

theorem updateOcr_eq_ok_iff {store' : Store} {id : Int} {p : Page} :
    store.updateOcr id p.text p.table = .ok store' ↔
      store.failing.lookup .updateOcr = none ∧
        ∃ d, store.find? id = some d ∧ store' = store.put (d.withPages p) := by
  rw [updateOcr, permit, require]
  cases store.failing.lookup .updateOcr with
  | some e => simp [bind, Except.bind]
  | none =>
    cases store.find? id with
    | none => simp [bind, Except.bind]
    | some d => simp [bind, Except.bind, pure, Except.pure, Document.withPages, eq_comm]

/-- Only the one document is changed. -/
theorem find?_put_withPages {id : Int} (hd : store.find? id = some d) (p : Page) (id' : Int) :
    (store.put (d.withPages p)).find? id' =
      if id' = id then some (d.withPages p) else store.find? id' := by
  have hid : (d.withPages p).id = id := by
    show d.id = id
    exact id_of_find? hd
  split
  · rename_i heq
    rw [heq, ← hid]
    exact find?_put store (d.withPages p)
  · rename_i hne
    apply find?_put_of_ne
    rw [hid]
    exact hne

/-- The hints are written when both accesses are permitted to a document
that is there. -/
theorem applyHints_eq_ok_iff {id : Int} {h : Hints} {r : Document × Store} :
    store.applyHints id h = .ok r ↔
      store.failing.lookup .get = none ∧ store.failing.lookup .update = none ∧
        ∃ d, store.find? id = some d ∧ r = (d.withHints h, store.put (d.withHints h)) := by
  rw [applyHints, get, permit, require]
  cases store.failing.lookup .get with
  | some e => simp [bind, Except.bind]
  | none =>
    cases hd : store.find? id with
    | none => simp [bind, Except.bind]
    | some d =>
      have hrequire : store.require (d.withHints h).id = .ok d := by
        show store.require d.id = _
        rw [id_of_find? hd, require, hd]
      simp only [bind, Except.bind, update, hrequire, permit]
      cases store.failing.lookup .update with
      | some e => simp
      | none => simp [pure, Except.pure, eq_comm]

theorem applyHints_isOk_iff {id : Int} {h : Hints} :
    (∃ r, store.applyHints id h = .ok r) ↔
      store.failing.lookup .get = none ∧ store.failing.lookup .update = none ∧
        (store.find? id).isSome = true := by
  simp only [applyHints_eq_ok_iff, Option.isSome_iff_exists]
  constructor
  · rintro ⟨r, hget, hupdate, d, hd, -⟩
    exact ⟨hget, hupdate, d, hd⟩
  · rintro ⟨hget, hupdate, d, hd⟩
    exact ⟨_, hget, hupdate, d, hd, rfl⟩

/-- Writing the pages of a document does not change whether its hints can be
written. -/
theorem applyHints_put_isOk_iff {id : Int} (hd : store.find? id = some d) (p : Page) {h : Hints} :
    (∃ r, (store.put (d.withPages p)).applyHints id h = .ok r) ↔
      store.failing.lookup .get = none ∧ store.failing.lookup .update = none := by
  have hfind : ((store.put (d.withPages p)).find? id).isSome = true := by
    rw [find?_put_withPages hd, if_pos rfl]
    rfl
  rw [applyHints_isOk_iff]
  constructor
  · rintro ⟨hget, hupdate, -⟩
    exact ⟨hget, hupdate⟩
  · rintro ⟨hget, hupdate⟩
    exact ⟨hget, hupdate, hfind⟩

/-! ## Saving -/

/-- Saving breaks off between its writes: what was read from the pages of a
document is written, and the hints are refused. -/
structure Tears (store : Store) (s : Session) (d : Document) : Prop where
  held : s.pages.text ≠ "" ∨ s.pages.table ≠ ""
  hints : s.hints.isSome = true
  found : store.find? s.document = some d
  permitted : store.failing.lookup .updateOcr = none
  refused : store.failing.lookup .get ≠ none ∨ store.failing.lookup .update ≠ none

end Store

namespace Workbench

variable {store : Store} {s : Session} {d : Document}

theorem held_iff {p : Page} :
    (p.text.isEmpty && p.table.isEmpty) = false ↔ p.text ≠ "" ∨ p.table ≠ "" := by
  rw [Bool.and_eq_false_iff]
  simp

/-- What was read from the pages stays written when the hints are refused. -/
theorem save_of_tears (h : store.Tears s d) :
    ∃ e, save store s = (store.put (d.withPages s.pages), .error e) := by
  have hheld : ¬ (s.pages.text.isEmpty && s.pages.table.isEmpty) = true := by
    rw [held_iff.2 h.held]
    exact Bool.false_ne_true
  have hwritten : store.updateOcr s.document s.pages.text s.pages.table
      = .ok (store.put (d.withPages s.pages)) :=
    Store.updateOcr_eq_ok_iff.2 ⟨h.permitted, d, h.found, rfl⟩
  obtain ⟨hints, hhints⟩ := Option.isSome_iff_exists.1 h.hints
  rw [save, if_neg hheld, hwritten, hhints]
  cases happly : (store.put (d.withPages s.pages)).applyHints s.document hints with
  | error e =>
    refine ⟨e, ?_⟩
    dsimp only
    rw [happly]
  | ok r =>
    obtain ⟨hget, hupdate⟩ := (Store.applyHints_put_isOk_iff h.found s.pages).1 ⟨r, happly⟩
    exact (h.refused.elim (fun hne => hne hget) fun hne => hne hupdate).elim

/-- Otherwise a failure to save leaves the store as it was. -/
theorem save_of_not_tears (h : ∀ d, ¬ store.Tears s d) {store' : Store} {e : Fault}
    (hsave : save store s = (store', .error e)) : store' = store := by
  rw [save] at hsave
  by_cases hempty : (s.pages.text.isEmpty && s.pages.table.isEmpty) = true
  · rw [if_pos hempty] at hsave
    cases hhints : s.hints with
    | none =>
      rw [hhints] at hsave
      cases hsave
    | some hints =>
      rw [hhints] at hsave
      dsimp only at hsave
      split at hsave
      · cases hsave
        rfl
      · cases hsave
  · rw [if_neg hempty] at hsave
    cases hwritten : store.updateOcr s.document s.pages.text s.pages.table with
    | error f =>
      rw [hwritten] at hsave
      cases hsave
      rfl
    | ok written =>
      obtain ⟨hpermitted, d, hfound, rfl⟩ := Store.updateOcr_eq_ok_iff.1 hwritten
      rw [hwritten] at hsave
      cases hhints : s.hints with
      | none =>
        rw [hhints] at hsave
        cases hsave
      | some hints =>
        rw [hhints] at hsave
        dsimp only at hsave
        -- The hints cannot be refused here: a refusal tears the saving.
        exfalso
        cases happly : (store.put (d.withPages s.pages)).applyHints s.document hints with
        | ok r =>
          rw [happly] at hsave
          cases hsave
        | error f =>
          have hheld := held_iff.1 (Bool.eq_false_iff.2 hempty)
          have hsome : s.hints.isSome = true := by rw [hhints, Option.isSome_some]
          refine h d ⟨hheld, hsome, hfound, hpermitted, Classical.byContradiction fun hnot => ?_⟩
          obtain ⟨hget, hupdate⟩ := not_or.1 hnot
          obtain ⟨r, hr⟩ := (Store.applyHints_put_isOk_iff hfound s.pages (h := hints)).2
            ⟨Classical.not_not.1 hget, Classical.not_not.1 hupdate⟩
          rw [hr] at happly
          cases happly

/-! ## Accepting -/

/-- A stored document. -/
def document? (w : Workbench) (id : Int) : Option Document := w.store.bind (·.find? id)

/-- An acceptance whose saving is torn. -/
structure Tears (w : Workbench) (s : Session) (d : Document) : Prop where
  session : w.session = some s
  accepted : s.canAccept = true
  store : ∃ store, w.store = some store ∧ store.Tears s d

/-- What becomes of an acceptance whose saving fails. -/
theorem accept_of_save_error {w : Workbench} (hs : w.session = some s)
    (haccept : s.canAccept = true) (hstore : w.store = some store) {store' : Store} {e : Fault}
    (hsave : save store s = (store', .error e)) :
    w.accept.2 ≠ .ok true ∧ w.accept.1.session = w.session ∧ w.accept.1.store = some store' := by
  have hnot : ¬ (! s.canAccept) = true := by simp [haccept]
  rw [accept, hs]
  dsimp only
  rw [if_neg hnot, hstore]
  dsimp only
  rw [hsave]
  dsimp only
  split
  · exact ⟨by simp, rfl, rfl⟩
  · exact ⟨by simp, rfl, rfl⟩

/-- An acceptance that fails without being torn changes neither the session
nor the store. -/
theorem accept_of_not_tears {w : Workbench} (h : w.accept.2 ≠ .ok true)
    (htears : ∀ s d, ¬ w.Tears s d) :
    w.accept.1.session = w.session ∧ w.accept.1.store = w.store := by
  cases hs : w.session with
  | none =>
    rw [accept, hs]
    exact ⟨hs, rfl⟩
  | some s =>
    by_cases haccept : s.canAccept = true
    · cases hstore : w.store with
      | none =>
        refine absurd ?_ h
        rw [accept, hs]
        simp [haccept, hstore]
      | some store =>
        rcases hsave : save store s with ⟨store', outcome⟩
        cases outcome with
        | ok u =>
          refine absurd ?_ h
          rw [accept, hs]
          simp [haccept, hstore, hsave]
        | error e =>
          have hnot : ∀ d, ¬ store.Tears s d :=
            fun d hd => htears s d ⟨hs, haccept, store, hstore, hd⟩
          obtain ⟨-, hsession, hkept⟩ := accept_of_save_error hs haccept hstore hsave
          rw [hsession, hs, hkept, save_of_not_tears hnot hsave]
          exact ⟨rfl, rfl⟩
    · rw [accept, hs]
      dsimp only
      rw [if_pos (by simpa using haccept)]
      exact ⟨hs, rfl⟩

/-- An acceptance that is torn fails and keeps the session; what was read
from the pages is in the document, and every other document is as it was. -/
theorem accept_of_tears {w : Workbench} (h : w.Tears s d) :
    w.accept.2 ≠ .ok true ∧ w.accept.1.session = w.session ∧
      ∀ id, w.accept.1.document? id =
        if id = s.document then some (d.withPages s.pages) else w.document? id := by
  obtain ⟨store, hstore, htears⟩ := h.store
  obtain ⟨e, hsave⟩ := save_of_tears htears
  obtain ⟨hfails, hsession, hkept⟩ := accept_of_save_error h.session h.accepted hstore hsave
  refine ⟨hfails, hsession, fun id => ?_⟩
  rw [document?, document?, hkept, hstore]
  exact Store.find?_put_withPages htears.found s.pages id

/-- An acceptance that fails keeps the session with all it holds.  It keeps
every document exactly when it is not torn, or when the torn document held
what was read from its pages before; otherwise that one document is left
with the text and the table of results that were not accepted. -/
theorem accept_unsaved {w : Workbench} (h : w.accept.2 ≠ .ok true) :
    w.accept.1.session = w.session ∧
      ((∀ id, w.accept.1.document? id = w.document? id) ↔
        ∀ s d, w.Tears s d → d = d.withPages s.pages) ∧
      ∀ s d, w.Tears s d → ∀ id, w.accept.1.document? id =
        if id = s.document then some (d.withPages s.pages) else w.document? id := by
  refine ⟨?_, ⟨?_, ?_⟩, fun s d htears => (accept_of_tears htears).2.2⟩
  · by_cases htears : ∃ s d, w.Tears s d
    · obtain ⟨s, d, htears⟩ := htears
      exact (accept_of_tears htears).2.1
    · exact (accept_of_not_tears h fun s d hd => htears ⟨s, d, hd⟩).1
  · intro hkept s d htears
    obtain ⟨store, hstore, hstoreTears⟩ := htears.store
    have hid := hkept s.document
    rw [(accept_of_tears htears).2.2, if_pos rfl, document?, hstore] at hid
    exact Option.some.inj (hstoreTears.found.symm.trans hid.symm)
  · intro hsame id
    by_cases htears : ∃ s d, w.Tears s d
    · obtain ⟨s, d, htears⟩ := htears
      obtain ⟨store, hstore, hstoreTears⟩ := htears.store
      rw [(accept_of_tears htears).2.2]
      split
      · rename_i hid
        rw [← hsame s d htears, document?, hstore, hid]
        exact hstoreTears.found.symm
      · rfl
    · rw [document?, (accept_of_not_tears h fun s d hd => htears ⟨s, d, hd⟩).2, document?]

/-- A store with one image that refuses to save documents. -/
def refusing : Store where
  documents := [{ id := 1, fileName := "a.png", mimeType := "image/png" }]
  failing := [(.update, .store "disk full")]

/-- The workbench at which that image was opened, its page was read, and the
model has replied. -/
def scanned : Workbench :=
  let start : Workbench :=
    { store := some refusing, client := some { model := "m" }, settings := { model := "m" }
      capabilities := ⟨true, true, true⟩ }
  let opened := (start.open 0 1 "a.png" [] "image/png" "").bench
  let read := (opened.handle 0 (.progress 1 (.result ⟨"text", "table"⟩))).bench
  (read.handle 0 (.chunk 1 { text := "{}", done := true })).bench

theorem accept_unsaved_scanned : scanned.accept.2 ≠ .ok true ∧
    scanned.accept.1.session = scanned.session ∧
      ((∀ id, scanned.accept.1.document? id = scanned.document? id) ↔
        ∀ s d, scanned.Tears s d → d = d.withPages s.pages) ∧
      ∀ s d, scanned.Tears s d → ∀ id, scanned.accept.1.document? id =
        if id = s.document then some (d.withPages s.pages) else scanned.document? id := by
  have hfails : scanned.accept.2 ≠ .ok true := by
    rw [show scanned.accept.2 = .ok false from rfl]
    simp
  exact ⟨hfails, accept_unsaved hfails⟩

/-- Saving is torn there: the image keeps the text of results that were not
accepted. -/
theorem document_of_unsaved_scan :
    scanned.session.isSome = true ∧ scanned.accept.2 = .ok false ∧
      (scanned.document? 1).map Document.ocrText = some "" ∧
      (scanned.accept.1.document? 1).map Document.ocrText = some "text" :=
  ⟨rfl, rfl, rfl, rfl⟩

end Workbench
end Intake
