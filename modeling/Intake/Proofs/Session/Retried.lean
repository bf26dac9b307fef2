import Intake.Proofs.Session.Saved

/-!
# Acceptances tried again

An acceptance may fail at any access of the store and be tried again.  The one
that succeeds leaves the store as if it had been the only one: results are
neither lost nor written twice.

There are four groups.

* Writes.  `put_put` says that the later of two writes of one document counts.
* Documents.  `Document.Accepts` is what an acceptance makes of its document,
  field by field; `accepts_withResults` says that saving does this.
* Saving.  `save_eq_ok_iff` says when results are saved and what is written;
  `save_withRead_iff` says that a half that was written before makes no
  difference.
* Attempts.  `Workbench.Attempted` is a row of failed acceptances,
  `store_of_attempted` what it may leave behind, and `accept_of_attempted` is
  the result.
-/

namespace Intake

open Text

/-! ## Writes -/

namespace Store

variable {store : Store} {d d' : Document}

theorem any_of_find? {id : Int} (h : store.find? id = some d) :
    store.documents.any (·.id == id) = true :=
  List.any_eq_true.2 ⟨d, List.mem_of_find?_eq_some h, by simpa using id_of_find? h⟩

/-- A document that is there is replaced where it stands. -/
theorem put_of_find? {id : Int} (h : store.find? id = some d) (hid : d'.id = id) :
    store.put d' = { store with
      documents := store.documents.map fun old => if old.id == id then d' else old } := by
  rw [put, hid, if_pos (any_of_find? h)]

/-- The later of two writes of one document counts. -/
theorem put_put {id : Int} (h : store.find? id = some d) {d₁ d₂ : Document} (h₁ : d₁.id = id)
    (h₂ : d₂.id = id) : (store.put d₁).put d₂ = store.put d₂ := by
  have hfound : (store.put d₁).find? id = some d₁ := h₁ ▸ find?_put store d₁
  rw [put_of_find? hfound h₂, put_of_find? h h₁, put_of_find? h h₂]
  simp only [List.map_map]
  congr 1
  refine List.map_congr_left fun old _ => ?_
  simp only [Function.comp]
  split
  · rw [if_pos (by simpa using h₁)]
  · rfl

/-- No document comes or goes when one is replaced. -/
theorem map_id_put {id : Int} (h : store.find? id = some d) (hid : d'.id = id) :
    (store.put d').documents.map (·.id) = store.documents.map (·.id) := by
  rw [put_of_find? h hid]
  simp only [List.map_map]
  refine List.map_congr_left fun old _ => ?_
  simp only [Function.comp]
  split
  · rename_i hold
    rw [hid]
    exact (beq_iff_eq.1 hold).symm
  · rfl

end Store

/-! ## Documents -/

namespace Document

/-- What an acceptance makes of its document.  What was read from the pages
replaces what was read before when there is any of it; a suggested title
replaces the one made from the file name; a summary fills empty notes; and
nothing else is touched. -/
structure Accepts (d : Document) (pages : Page) (hints : Option Hints) (d' : Document) : Prop where
  read : pages.text ≠ "" ∨ pages.table ≠ "" →
    d'.ocrText = pages.text ∧ d'.ocrTable = pages.table
  unread : ¬ (pages.text ≠ "" ∨ pages.table ≠ "") →
    d'.ocrText = d.ocrText ∧ d'.ocrTable = d.ocrTable
  titled : ∀ h ∈ hints, h.title ≠ [] ∧ d.title = Prose.ofString (FileName.title d.fileName) →
    d'.title = h.title
  untitled : (∀ h ∈ hints,
      ¬ (h.title ≠ [] ∧ d.title = Prose.ofString (FileName.title d.fileName))) →
    d'.title = d.title
  noted : ∀ h ∈ hints, h.summary ≠ [] ∧ d.notes = [] → d'.notes = h.summary
  unnoted : (∀ h ∈ hints, ¬ (h.summary ≠ [] ∧ d.notes = [])) → d'.notes = d.notes
  others : { d' with
    ocrText := d.ocrText, ocrTable := d.ocrTable, title := d.title, notes := d.notes } = d

theorem withHints_eq (d : Document) (h : Hints) : d.withHints h =
    { d with
      title := if h.title ≠ [] ∧ d.title = Prose.ofString (FileName.title d.fileName)
        then h.title else d.title
      notes := if h.summary ≠ [] ∧ d.notes = [] then h.summary else d.notes } := by
  simp [withHints]

/-- A text that took the place of a certain other one, or did not, stays when
this is done again. -/
theorem replace_replace (new old place : Prose) :
    (if new ≠ [] ∧ (if new ≠ [] ∧ old = place then new else old) = place then new
      else if new ≠ [] ∧ old = place then new else old) =
        if new ≠ [] ∧ old = place then new else old := by
  by_cases h : new ≠ [] ∧ old = place
  · rw [if_pos h, ite_self]
  · rw [if_neg h, if_neg h]

/-- Hints that were written are not written again, even when the suggested title
is the one made from the file name. -/
theorem withHints_withHints (d : Document) (h : Hints) :
    (d.withHints h).withHints h = d.withHints h := by
  rw [withHints_eq (d.withHints h), withHints_eq d]
  simp only [replace_replace]

/-- A document with what was read from its pages, when there is any of it. -/
def withRead (d : Document) (pages : Page) : Document :=
  if pages.text ≠ "" ∨ pages.table ≠ "" then d.withPages pages else d

theorem withResults_eq (d : Document) (pages : Page) (hints : Option Hints) :
    d.withResults pages hints = hints.elim (d.withRead pages) (d.withRead pages).withHints := by
  have hread : (if pages.text.isEmpty && pages.table.isEmpty then d else d.withPages pages) =
      d.withRead pages := by
    rw [withRead]
    by_cases hheld : pages.text ≠ "" ∨ pages.table ≠ ""
    · rw [if_pos hheld, Workbench.held_iff.2 hheld]
      rfl
    · rw [if_neg hheld, if_pos (Bool.not_eq_false _ ▸ fun h => hheld (Workbench.held_iff.1 h))]
  cases hints with
  | none => exact hread
  | some h => exact congrArg (·.withHints h) hread

/-- Nothing is touched but what was read from the pages. -/
theorem accepts_withRead (d : Document) (pages : Page) :
    d.Accepts pages none (d.withRead pages) := by
  have hnone : ∀ {P : Hints → Prop}, ∀ h ∈ (none : Option Hints), P h :=
    fun h hh => absurd hh (Option.not_mem_none h)
  rw [withRead]
  split
  · rename_i hheld
    exact ⟨fun _ => ⟨rfl, rfl⟩, fun h => absurd hheld h, hnone, fun _ => rfl, hnone,
      fun _ => rfl, rfl⟩
  · rename_i hheld
    exact ⟨fun h => absurd h hheld, fun _ => ⟨rfl, rfl⟩, hnone, fun _ => rfl, hnone,
      fun _ => rfl, rfl⟩

/-- Saving makes of a document what an acceptance is to make of it. -/
theorem accepts_withResults (d : Document) (pages : Page) (hints : Option Hints) :
    d.Accepts pages hints (d.withResults pages hints) := by
  have hread := d.accepts_withRead pages
  rw [withResults_eq]
  cases hints with
  | none => exact hread
  | some h =>
    have hnone : ∀ {P : Hints → Prop}, ∀ h ∈ (none : Option Hints), P h :=
      fun h hh => absurd hh (Option.not_mem_none h)
    have htitle : (d.withRead pages).title = d.title := hread.untitled hnone
    have hnotes : (d.withRead pages).notes = d.notes := hread.unnoted hnone
    have hname : (d.withRead pages).fileName = d.fileName := by
      rw [withRead]
      split <;> rfl
    rw [Option.elim_some, withHints_eq]
    refine ⟨hread.read, hread.unread, ?_, ?_, ?_, ?_, hread.others⟩
    · rintro h' ⟨rfl⟩ hnew
      simp only [htitle, hname]
      exact if_pos hnew
    · intro hold
      simp only [htitle, hname]
      exact if_neg (hold h rfl)
    · rintro h' ⟨rfl⟩ hnew
      simp only [hnotes]
      exact if_pos hnew
    · intro hold
      simp only [hnotes]
      exact if_neg (hold h rfl)

end Document

/-! ## Saving -/

namespace Store

variable {store : Store} {d : Document} {id : Int}

/-- A store in which what was read from the pages of a document is written, when
there is any of it. -/
def withRead (store : Store) (d : Document) (pages : Page) : Store :=
  if pages.text ≠ "" ∨ pages.table ≠ "" then store.put (d.withPages pages) else store

theorem failing_withRead (store : Store) (d : Document) (pages : Page) :
    (store.withRead d pages).failing = store.failing := by
  rw [withRead]
  split <;> rfl

theorem find?_withRead (hd : store.find? id = some d) (pages : Page) :
    (store.withRead d pages).find? id = some (d.withRead pages) := by
  rw [withRead, Document.withRead]
  split
  · rw [find?_put_withPages hd, if_pos rfl]
  · exact hd

/-- What was read from the pages is written once, however often it is written. -/
theorem withRead_withRead (hd : store.find? id = some d) (pages : Page) :
    (store.withRead d pages).withRead (d.withRead pages) pages = store.withRead d pages := by
  have hid : (d.withPages pages).id = id := id_of_find? (d := d) hd
  simp only [withRead, Document.withRead]
  split
  · exact put_put hd hid hid
  · rfl

theorem updateOcr_eq_withRead_iff (hd : store.find? id = some d) {pages : Page}
    {store' : Store} :
    (if (pages.text.isEmpty && pages.table.isEmpty) = true then .ok store
        else store.updateOcr id pages.text pages.table) = Except.ok store' ↔
      ((pages.text ≠ "" ∨ pages.table ≠ "") → store.failing.lookup .updateOcr = none) ∧
        store' = store.withRead d pages := by
  rw [withRead]
  by_cases hheld : pages.text ≠ "" ∨ pages.table ≠ ""
  · rw [if_pos hheld, if_neg (by rw [Workbench.held_iff.2 hheld]; exact Bool.false_ne_true),
      updateOcr_eq_ok_iff]
    constructor
    · rintro ⟨hpermitted, d', hd', rfl⟩
      rw [Option.some.inj (hd.symm.trans hd')]
      exact ⟨fun _ => hpermitted, rfl⟩
    · rintro ⟨hpermitted, rfl⟩
      exact ⟨hpermitted hheld, d, hd, rfl⟩
  · rw [if_neg hheld, if_pos (Bool.not_eq_false _ ▸ fun h => hheld (Workbench.held_iff.1 h))]
    constructor
    · intro h
      exact ⟨fun h' => absurd h' hheld, (Except.ok.inj h).symm⟩
    · rintro ⟨-, rfl⟩
      rfl

/-- Hints that were written are not written again. -/
theorem applyHints_again {h : Hints} (hd : store.find? id = some d)
    (hget : store.failing.lookup .get = none) (hupdate : store.failing.lookup .update = none) :
    (store.put (d.withHints h)).applyHints id h =
      .ok (d.withHints h, store.put (d.withHints h)) := by
  have hid : (d.withHints h).id = id := id_of_find? (d := d) hd
  have hfound : (store.put (d.withHints h)).find? id = some (d.withHints h) :=
    hid ▸ find?_put store (d.withHints h)
  refine applyHints_eq_ok_iff.2 ⟨hget, hupdate, _, hfound, ?_⟩
  rw [Document.withHints_withHints, put_put hd hid hid]

end Store

namespace Workbench

variable {store store' : Store} {s : Session} {d : Document}

/-- What saving leaves in a store. -/
def savedIn (store : Store) (d : Document) (s : Session) : Store :=
  s.hints.elim (store.withRead d s.pages) fun h =>
    (store.withRead d s.pages).put ((d.withRead s.pages).withHints h)

/-- Saving writes what was read from the pages when there is any of it, and then
the hints when there are any. -/
theorem save_eq_ok_iff (hd : store.find? s.document = some d) :
    save store s = (store', .ok ()) ↔
      ((s.pages.text ≠ "" ∨ s.pages.table ≠ "") → store.failing.lookup .updateOcr = none) ∧
      (s.hints.isSome = true →
        store.failing.lookup .get = none ∧ store.failing.lookup .update = none) ∧
      store' = savedIn store d s := by
  have hread := Store.find?_withRead hd s.pages
  have hfailing := Store.failing_withRead store d s.pages
  rw [save, savedIn]
  cases hmid : (if (s.pages.text.isEmpty && s.pages.table.isEmpty) = true then .ok store
      else store.updateOcr s.document s.pages.text s.pages.table : Except Fault Store) with
  | error e =>
    refine iff_of_false (fun hsave => ?_) fun h => ?_
    · cases hsave
    · rw [(Store.updateOcr_eq_withRead_iff hd).2 ⟨h.1, rfl⟩] at hmid
      cases hmid
  | ok mid =>
    obtain ⟨hpermitted, rfl⟩ := (Store.updateOcr_eq_withRead_iff hd).1 hmid
    cases hhints : s.hints with
    | none =>
      constructor
      · intro hsave
        exact ⟨hpermitted, fun h => absurd h Bool.false_ne_true, (congrArg Prod.fst hsave).symm⟩
      · rintro ⟨-, -, rfl⟩
        rfl
    | some h =>
      dsimp only
      cases happly : (store.withRead d s.pages).applyHints s.document h with
      | error e =>
        refine iff_of_false (fun hsave => ?_) fun hsaved => ?_
        · cases hsave
        · obtain ⟨hget, hupdate⟩ := hsaved.2.1 rfl
          rw [← hfailing] at hget hupdate
          rw [Store.applyHints_eq_ok_iff.2 ⟨hget, hupdate, _, hread, rfl⟩] at happly
          cases happly
      | ok r =>
        obtain ⟨hget, hupdate, d', hd', rfl⟩ := Store.applyHints_eq_ok_iff.1 happly
        obtain rfl := Option.some.inj (hread.symm.trans hd')
        rw [hfailing] at hget hupdate
        constructor
        · intro hsave
          exact ⟨hpermitted, fun _ => ⟨hget, hupdate⟩, (congrArg Prod.fst hsave).symm⟩
        · rintro ⟨-, -, rfl⟩
          rfl

/-- Half of the results that was written before makes no difference. -/
theorem save_withRead_iff (hd : store.find? s.document = some d) :
    save (store.withRead d s.pages) s = (store', .ok ()) ↔ save store s = (store', .ok ()) := by
  have hread := Store.find?_withRead hd s.pages
  have hagain : (d.withRead s.pages).withRead s.pages = d.withRead s.pages := by
    simp only [Document.withRead]
    split <;> rfl
  rw [save_eq_ok_iff hread, save_eq_ok_iff hd, Store.failing_withRead, savedIn, savedIn,
    Store.withRead_withRead hd, hagain]

/-- What a save that failed may leave behind. -/
theorem save_of_error (hd : store.find? s.document = some d) {e : Fault}
    (hsave : save store s = (store', .error e)) :
    store' = store ∨ store' = store.withRead d s.pages := by
  by_cases htears : ∃ d', store.Tears s d'
  · obtain ⟨d', htears⟩ := htears
    obtain rfl := Option.some.inj (hd.symm.trans htears.found)
    obtain ⟨e', htorn⟩ := save_of_tears htears
    rw [htorn] at hsave
    right
    rw [Store.withRead, if_pos htears.held]
    exact (congrArg Prod.fst hsave).symm
  · exact Or.inl (save_of_not_tears (fun d' hd' => htears ⟨d', hd'⟩) hsave)

end Workbench

/-! ## Attempts -/

namespace Store

variable {store : Store} {d : Document}

/-- A store whose accesses fail like this from now on. -/
def failingWith (store : Store) (failing : List (Access × Fault)) : Store :=
  { store with failing := failing }

theorem withRead_failingWith (store : Store) (d : Document) (pages : Page)
    (failing : List (Access × Fault)) :
    (store.failingWith failing).withRead d pages =
      (store.withRead d pages).failingWith failing := by
  rw [withRead, withRead]
  split
  · rfl
  · rfl

/-- Nothing was changed but one document. -/
structure Frames (store store' : Store) (id : Int) : Prop where
  others : ∀ id' ≠ id, store'.find? id' = store.find? id'
  ids : store'.documents.map (·.id) = store.documents.map (·.id)
  blobs : store'.blobs = store.blobs
  entities : store'.entities = store.entities

theorem Frames.refl (store : Store) (id : Int) : store.Frames store id :=
  ⟨fun _ _ => rfl, rfl, rfl, rfl⟩

theorem Frames.trans {store' store'' : Store} {id : Int} (h : store.Frames store' id)
    (h' : store'.Frames store'' id) : store.Frames store'' id :=
  ⟨fun id' hne => (h'.others id' hne).trans (h.others id' hne), h'.ids.trans h.ids,
    h'.blobs.trans h.blobs, h'.entities.trans h.entities⟩

theorem frames_put {id : Int} (hd : store.find? id = some d) {d' : Document} (hid : d'.id = id) :
    store.Frames (store.put d') id :=
  ⟨fun _ hne => find?_put_of_ne store (hid.symm ▸ hne), map_id_put hd hid, rfl, rfl⟩

theorem frames_withRead {id : Int} (hd : store.find? id = some d) (pages : Page) :
    store.Frames (store.withRead d pages) id := by
  rw [withRead]
  split
  · exact frames_put hd (id_of_find? (d := d) hd)
  · exact Frames.refl store id

/-- What an acceptance makes of a store: one document is changed as the results
of the session say, and nothing else.  Writing the same hints again changes
nothing. -/
structure Accepts (store : Store) (s : Session) (d : Document) (store' : Store) : Prop where
  document : ∃ d', store'.find? s.document = some d' ∧ d.Accepts s.pages s.hints d' ∧
    ∀ h ∈ s.hints, store'.applyHints s.document h = .ok (d', store')
  frame : store.Frames store' s.document

theorem accepts_savedIn {s : Session} (hd : store.find? s.document = some d)
    (hpermitted : s.hints.isSome = true →
      store.failing.lookup .get = none ∧ store.failing.lookup .update = none) :
    store.Accepts s d (Workbench.savedIn store d s) := by
  have hread := find?_withRead hd s.pages
  have hframe := frames_withRead hd s.pages
  have hresults := d.accepts_withResults s.pages s.hints
  rw [Document.withResults_eq] at hresults
  rw [Workbench.savedIn]
  cases hhints : s.hints with
  | none =>
    rw [hhints] at hresults
    refine ⟨⟨_, hread, hhints ▸ hresults, fun h hh => ?_⟩, hframe⟩
    rw [hhints] at hh
    cases hh
  | some h =>
    rw [hhints] at hresults hpermitted
    have hid : ((d.withRead s.pages).withHints h).id = s.document :=
      id_of_find? (d := d.withRead s.pages) hread
    obtain ⟨hget, hupdate⟩ := hpermitted rfl
    rw [← failing_withRead store d s.pages] at hget hupdate
    refine ⟨⟨_, hid ▸ find?_put _ _, hhints ▸ hresults, fun h' hh => ?_⟩,
      hframe.trans (frames_put hread hid)⟩
    rw [hhints] at hh
    rw [← Option.some.inj hh]
    exact applyHints_again hread hget hupdate

end Store

namespace Workbench

/-- A workbench whose store fails like this from now on. -/
def failingWith (w : Workbench) (failing : List (Access × Fault)) : Workbench :=
  { w with store := w.store.map (·.failingWith failing) }

/-- Acceptances that failed one after the other, each at a store that failed in
its own way. -/
inductive Attempted : Workbench → Workbench → Prop where
  | none (w : Workbench) : Attempted w w
  | failed {w w' : Workbench} (h : Attempted w w') {failing : List (Access × Fault)}
      (hfails : (w'.failingWith failing).accept.2 ≠ .ok true) :
      Attempted w (w'.failingWith failing).accept.1

variable {w w' : Workbench} {store store' : Store} {s : Session} {d : Document}

/-- An acceptance that fails leaves the session, and of its results at most what
was read from the pages. -/
theorem store_of_failed (hs : w.session = some s) (haccept : s.canAccept = true)
    (hstore : w.store = some store) (hd : store.find? s.document = some d)
    (hfails : w.accept.2 ≠ .ok true) :
    w.accept.1.session = some s ∧
      (w.accept.1.store = some store ∨ w.accept.1.store = some (store.withRead d s.pages)) := by
  rcases hsave : save store s with ⟨store', outcome⟩
  cases outcome with
  | ok _ =>
    rw [accept_of_save_ok hs haccept hstore hsave] at hfails
    exact absurd rfl hfails
  | error e =>
    obtain ⟨-, hkept, hleft⟩ := accept_of_save_error hs haccept hstore hsave
    refine ⟨hkept.trans hs, ?_⟩
    rw [hleft]
    exact (save_of_error hd hsave).imp (congrArg some) (congrArg some)

/-- The same of any number of acceptances that failed. -/
theorem store_of_attempted (hs : w.session = some s) (haccept : s.canAccept = true)
    (hstore : w.store = some store) (hd : store.find? s.document = some d)
    (h : Attempted w w') : w'.session = some s ∧ ∃ failing,
      w'.store = some (store.failingWith failing) ∨
        w'.store = some ((store.withRead d s.pages).failingWith failing) := by
  induction h with
  | none => exact ⟨hs, store.failing, Or.inl hstore⟩
  | @failed w' _ failing hfails ih =>
    obtain ⟨hsession, before, hbefore⟩ := ih
    have hopen : (w'.failingWith failing).session = some s := hsession
    -- What was read is written already or not; writing it once more changes nothing.
    rcases hbefore with hbefore | hbefore
    · have hbase : (w'.failingWith failing).store = some (store.failingWith failing) := by
        rw [failingWith, hbefore]
        rfl
      obtain ⟨hkept, hleft⟩ := store_of_failed (d := d) hopen haccept hbase hd hfails
      rw [Store.withRead_failingWith] at hleft
      exact ⟨hkept, failing, hleft⟩
    · have hbase : (w'.failingWith failing).store =
          some ((store.withRead d s.pages).failingWith failing) := by
        rw [failingWith, hbefore]
        rfl
      have hread := Store.find?_withRead hd s.pages
      obtain ⟨hkept, hleft⟩ :=
        store_of_failed (d := d.withRead s.pages) hopen haccept hbase hread hfails
      rw [Store.withRead_failingWith, Store.withRead_withRead hd, or_self] at hleft
      exact ⟨hkept, failing, Or.inr hleft⟩

/-- Results are saved in what acceptances that failed have left exactly when they
are saved without them, and the same is left in the store. -/
theorem save_of_attempted (hs : w.session = some s) (haccept : s.canAccept = true)
    (hstore : w.store = some store) (hd : store.find? s.document = some d)
    (h : Attempted w w') (failing : List (Access × Fault)) :
    ∃ base, (w'.failingWith failing).session = some s ∧
      (w'.failingWith failing).store = some base ∧
        ∀ store', save base s = (store', .ok ()) ↔
          save (store.failingWith failing) s = (store', .ok ()) := by
  obtain ⟨hsession, before, hbefore | hbefore⟩ := store_of_attempted hs haccept hstore hd h
  · refine ⟨store.failingWith failing, hsession, ?_, fun _ => Iff.rfl⟩
    rw [failingWith, hbefore]
    rfl
  · refine ⟨(store.withRead d s.pages).failingWith failing, hsession, ?_, fun store' => ?_⟩
    · rw [failingWith, hbefore]
      rfl
    · rw [← Store.withRead_failingWith]
      have hbase : (store.failingWith failing).find? s.document = some d := hd
      exact save_withRead_iff hbase

/-- The acceptance that succeeds after others failed leaves the store as it would
have left it without them: the results of the session are in its document, and
nothing else is changed. -/
theorem accept_of_attempted (hs : w.session = some s) (haccept : s.canAccept = true)
    (hstore : w.store = some store) (hd : store.find? s.document = some d)
    (hattempted : Attempted w w') {failing : List (Access × Fault)}
    (hok : (w'.failingWith failing).accept.2 = .ok true) :
    (w.failingWith failing).accept.2 = .ok true ∧
      (w'.failingWith failing).accept.1.store = (w.failingWith failing).accept.1.store ∧
      ∃ store', (w'.failingWith failing).accept.1.store = some store' ∧
        store.Accepts s d store' := by
  obtain ⟨base, hopen, hbase, hsame⟩ :=
    save_of_attempted hs haccept hstore hd hattempted failing
  have hfirst : (w.failingWith failing).session = some s := hs
  have hfresh : (w.failingWith failing).store = some (store.failingWith failing) := by
    rw [failingWith, hstore]
    rfl
  rcases hsave : save base s with ⟨store', outcome⟩
  cases outcome with
  | error e => exact absurd hok (accept_of_save_error hopen haccept hbase hsave).1
  | ok _ =>
    have honly := (hsame store').1 hsave
    have hfound : (store.failingWith failing).find? s.document = some d := hd
    obtain ⟨-, hpermitted, rfl⟩ := (save_eq_ok_iff hfound).1 honly
    have haccepts := Store.accepts_savedIn hfound hpermitted
    rw [accept_of_save_ok hopen haccept hbase hsave,
      accept_of_save_ok hfirst haccept hfresh honly]
    exact ⟨rfl, rfl, _, rfl, haccepts.document,
      ⟨haccepts.frame.others, haccepts.frame.ids, haccepts.frame.blobs, haccepts.frame.entities⟩⟩

/-- An image whose title is the one made from its file name. -/
def imageDocument : Document where
  id := 1
  fileName := "a.png"
  mimeType := "image/png"
  title := Prose.ofString "a"

/-- The workbench at which that image was opened, its page was read, and the model
has suggested a title. -/
def titled : Workbench :=
  let start : Workbench :=
    { store := some { documents := [imageDocument] }, client := some { model := "m" }
      settings := { model := "m" }, capabilities := ⟨true, true, true⟩ }
  let opened := (start.open 0 1 "a.png" [] "image/png" "").bench
  let read := (opened.handle 0 (.progress 1 (.result ⟨"text", "table"⟩))).bench
  (read.handle 0 (.chunk 1
    { text := "\x7b\"title_suggestion\": \"Roof\"\x7d", done := true })).bench

/-- The store first refuses to save the document, after what was read from its page
was written.  The second acceptance saves the title as well. -/
theorem accept_of_attempted_titled : ∃ s store store',
    titled.session = some s ∧ titled.store = some store ∧
      Attempted titled (titled.failingWith [(.update, .store "disk full")]).accept.1 ∧
      ((titled.failingWith [(.update, .store "disk full")]).accept.1.failingWith
        []).accept.1.store = some store' ∧
      (titled.failingWith []).accept.1.store = some store' ∧
      store.Accepts s imageDocument store' := by
  have hsession : (titled.session.any fun s => s.canAccept && s.document == 1) = true := by
    decide +kernel
  have hstore : (titled.store.any fun store =>
      decide (store.find? 1 = some imageDocument)) = true := by
    decide +kernel
  have hrefused : (titled.failingWith [(.update, .store "disk full")]).accept.2.toOption =
      some false := by
    decide +kernel
  have haccepted : ((titled.failingWith [(.update, .store "disk full")]).accept.1.failingWith
      []).accept.2.toOption = some true := by
    decide +kernel
  obtain ⟨s, hs, hcomplete⟩ := (Option.any_eq_true _ _).1 hsession
  obtain ⟨haccept, hdocument⟩ := Bool.and_eq_true_iff.1 hcomplete
  obtain ⟨store, hstore, hfound⟩ := (Option.any_eq_true _ _).1 hstore
  have hd : store.find? s.document = some imageDocument := by
    rw [beq_iff_eq.1 hdocument]
    exact of_decide_eq_true hfound
  have hfails : (titled.failingWith [(.update, .store "disk full")]).accept.2 ≠ .ok true := by
    intro h
    rw [h] at hrefused
    cases hrefused
  have hok : ((titled.failingWith [(.update, .store "disk full")]).accept.1.failingWith
      []).accept.2 = .ok true := by
    cases h : ((titled.failingWith [(.update, .store "disk full")]).accept.1.failingWith
        []).accept.2 with
    | error e =>
      rw [h] at haccepted
      cases haccepted
    | ok b =>
      rw [h] at haccepted
      rw [Option.some.inj haccepted]
  have hattempted := (Attempted.none titled).failed hfails
  obtain ⟨-, hsame, store', hleft, haccepts⟩ :=
    accept_of_attempted hs haccept hstore hd hattempted hok
  exact ⟨s, store, store', hs, hstore, hattempted, hleft, hsame ▸ hleft, haccepts⟩

end Workbench

end Intake
