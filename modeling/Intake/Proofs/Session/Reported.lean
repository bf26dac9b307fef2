import Intake.Proofs.Session.Changes
import Intake.Proofs.Session.Retried

/-!
# What is reported of saving

A refusal of the store is reported until another session begins.  An
acceptance that succeeds does not take the report back, so that results which
were refused once are reported as refused even when they are saved at last.

There are four groups.

* Attempts.  `Attempt` is an acceptance that reached the store;
  `statusError_accept` says what an acceptance does to the report.
* Moves.  `report_move` says that no other move changes the report, unless a
  session begins.
* Trails.  `Office.Trail` is a run with the attempts that were made in it,
  while the store fails as it likes; `Office.Reported` is its invariant.
* Reports.  `reported_of_trail` is the result.
-/

namespace Intake

/-! ## Attempts -/

/-- An acceptance that reached the store. -/
structure Attempt where
  /-- The session whose results were to be saved. -/
  number : Nat
  outcome : Except Fault Unit

namespace Attempt

/-- How the store refused. -/
def refusal? (a : Attempt) : Option Fault :=
  match a.outcome with
  | .ok _ => none
  | .error e => if e.isStore then some e else none

theorem refusal?_of_ok {a : Attempt} (h : a.outcome = .ok ()) : a.refusal? = none := by
  rw [refusal?, h]

/-- The refusals of a session's results, the oldest first. -/
def refusals (tried : List Attempt) (number : Nat) : List Fault :=
  (tried.filter (·.number = number)).filterMap (·.refusal?)

/-- The report of a refusal. -/
def reportText (e : Fault) : String := "save extraction: " ++ e.message

theorem reportText_eq (e : Fault) : reportText e = "save extraction: " ++ e.message := by
  unfold reportText
  rfl

/-- What is reported after some refusals: the latest of them. -/
def report (refused : List Fault) : String := (refused.getLast?.map reportText).getD ""

variable {tried : List Attempt} {a : Attempt} {number : Nat}

theorem refusals_snoc_of_eq (h : a.number = number) :
    refusals (tried ++ [a]) number = refusals tried number ++ a.refusal?.toList := by
  have hown : [a].filter (fun b => decide (b.number = number)) = [a] := by simp [h]
  rw [refusals, refusals, List.filter_append, List.filterMap_append, hown]
  cases hrefusal : a.refusal? with
  | none => rw [List.filterMap_cons_none hrefusal, Option.toList_none, List.filterMap_nil]
  | some e => rw [List.filterMap_cons_some hrefusal, Option.toList_some, List.filterMap_nil]

theorem refusals_eq_nil_iff :
    refusals tried number = [] ↔ ∀ a ∈ tried, a.number = number → a.refusal? = none := by
  simp [refusals]

theorem refusals_of_lt (h : ∀ a ∈ tried, a.number < number) : refusals tried number = [] :=
  refusals_eq_nil_iff.2 fun a ha hnumber => absurd hnumber (h a ha).ne

/-- Every refusal leaves a report. -/
theorem report_eq_empty_iff (refused : List Fault) : report refused = "" ↔ refused = [] := by
  rw [report]
  cases hlast : refused.getLast? with
  | none =>
    rw [List.getLast?_eq_none_iff] at hlast
    exact iff_of_true rfl hlast
  | some e =>
    have hne : refused ≠ [] := by
      rintro rfl
      cases hlast
    simp [hne, reportText_eq]

theorem report_snoc (refused : List Fault) (e : Fault) :
    report (refused ++ [e]) = reportText e := by
  simp [report]

end Attempt

/-- Whether there is anything to be saved. -/
def Session.holdsResults (s : Session) : Bool :=
  ! (s.pages.text.isEmpty && s.pages.table.isEmpty) || s.hints.isSome

namespace Workbench

variable {w : Workbench} {s : Session} {store : Store} {a : Attempt}

/-- The attempt that an acceptance amounts to.  It reaches the store when the
open session may be accepted and holds results. -/
def attempt? (w : Workbench) : Option Attempt :=
  match w.session, w.store with
  | some s, some store =>
    if s.canAccept && s.holdsResults then some ⟨s.number, (save store s).2⟩ else none
  | _, _ => none

theorem attempt?_eq_some (h : w.attempt? = some a) :
    ∃ s store, w.session = some s ∧ w.store = some store ∧ s.canAccept = true ∧
      a = ⟨s.number, (save store s).2⟩ := by
  rw [attempt?] at h
  split at h
  · rename_i s store hs hstore
    split at h
    · rename_i hreaches
      exact ⟨s, store, hs, hstore, (Bool.and_eq_true_iff.1 hreaches).1, (Option.some.inj h).symm⟩
    · cases h
  · cases h

/-- Nothing is refused where nothing is to be saved. -/
theorem save_of_not_holdsResults (store : Store) (h : s.holdsResults = false) :
    save store s = (store, .ok ()) := by
  rw [Session.holdsResults, Bool.or_eq_false_iff, Bool.not_eq_false'] at h
  have hhints : s.hints = none := Option.not_isSome_iff_eq_none.1 (Bool.eq_false_iff.1 h.2)
  rw [save, if_pos h.1, hhints]

/-- What is reported after an acceptance. -/
theorem statusError_accept (w : Workbench) :
    w.accept.1.statusError =
      ((w.attempt?.bind (·.refusal?)).map Attempt.reportText).getD w.statusError := by
  cases hs : w.session with
  | none =>
    rw [accept, attempt?, hs]
    rfl
  | some s =>
    by_cases haccept : s.canAccept = true
    · cases hstore : w.store with
      | none =>
        rw [accept_of_store_eq_none hs haccept hstore, attempt?, hs, hstore]
        rfl
      | some store =>
        cases hholds : s.holdsResults with
        | false =>
          have hsave := save_of_not_holdsResults store hholds
          rw [accept_of_save_ok hs haccept hstore hsave, attempt?, hs, hstore]
          simp [hholds]
        | true =>
          rcases hsave : save store s with ⟨store', outcome⟩
          cases outcome with
          | ok _ =>
            rw [accept_of_save_ok hs haccept hstore hsave, attempt?, hs, hstore]
            simp [haccept, hholds, hsave, Attempt.refusal?]
          | error e =>
            rw [accept, attempt?, hs, hstore]
            by_cases hrefused : e.isStore = true
            · simp [haccept, hholds, hsave, Attempt.refusal?, hrefused, saveFailed,
                Attempt.reportText_eq]
            · simp [haccept, hholds, hsave, Attempt.refusal?, hrefused]
    · rw [accept, attempt?, hs]
      cases w.store with
      | none => simp [haccept]
      | some store => simp [haccept]

/-- Without a session nothing is accepted. -/
theorem exists_of_accept_ok (hok : w.accept.2 = .ok true) : ∃ s, w.session = some s := by
  cases hs : w.session with
  | none =>
    rw [accept, hs] at hok
    cases hok
  | some s => exact ⟨s, rfl⟩

/-- An acceptance closes the open session or leaves it. -/
theorem number_accept {s' : Session} (hs' : w.accept.1.session = some s') :
    w.session = some s' := by
  rcases session_accept w with hnone | hsame
  · cases hnone.symm.trans hs'
  · exact hsame.symm.trans hs'

/-- An acceptance that succeeds was refused nothing. -/
theorem outcome_of_accept_ok (hok : w.accept.2 = .ok true) (h : w.attempt? = some a) :
    a.outcome = .ok () := by
  obtain ⟨s, store, hs, hstore, haccept, rfl⟩ := attempt?_eq_some h
  rcases hsave : save store s with ⟨store', outcome⟩
  cases outcome with
  | ok _ => rfl
  | error e => exact absurd hok (accept_of_save_error hs haccept hstore hsave).1

/-! ## Moves -/

/-- No session was opened, and nothing else is reported. -/
structure Retells (w w' : Workbench) : Prop where
  opened : w'.opened = w.opened
  statusError : w'.statusError = w.statusError

/-- A session was opened, with nothing reported. -/
structure Renews (w w' : Workbench) : Prop where
  opened : w'.opened = w.opened + 1
  statusError : w'.statusError = ""
  newer : ∀ s, w'.session = some s → w.opened < s.number

theorem Alters.retells {w w' : Workbench} (h : w.Alters w') : w.Retells w' := by
  obtain ⟨_, _, _, _, rfl⟩ := h
  exact ⟨by rfl, by rfl⟩

/-- A session begins with nothing reported; where none begins, the report
stays. -/
theorem report_open (w : Workbench) (now : Float) (document : Int) (filename : String)
    (data : Text.Utf8.Bytes) (mime text : String) :
    w.Retells (w.open now document filename data mime text).bench ∨
      w.Renews (w.open now document filename data mime text).bench := by
  have hnewer : ∀ s, (w.open now document filename data mime text).bench.session = some s →
      w.opened < s.number := fun s hs => (begins_open hs).number
  revert hnewer
  rw [Workbench.open]
  split
  · exact fun hnewer => Or.inr ⟨rfl, rfl, hnewer⟩
  · rename_i client _ _
    have hstart := (touches_startModel w.begun now client
      (w.newSession document filename data mime text)).alters.retells
    exact fun hnewer => Or.inr ⟨hstart.opened, hstart.statusError, hnewer⟩
  · have hcancel := (alters_cancel w).retells
    exact fun _ => Or.inl ⟨hcancel.opened, hcancel.statusError⟩

end Workbench

namespace Office

variable {o o' start : Office} {e : Entry} {tried : List Attempt}

/-- The attempt that a happening amounts to. -/
def attempt? (o : Office) : Happening → Option Attempt
  | .accepts => o.bench.attempt?
  | .handles (.key .accept) => o.bench.attempt?
  | _ => none

theorem attempt?_of_acceptance {a : Happening} (h : a.IsAcceptance) :
    o.attempt? a = o.bench.attempt? := by
  rcases h with rfl | rfl
  · rfl
  · rfl

theorem attempt?_of_not_acceptance {a : Happening} (h : ¬ a.IsAcceptance) :
    o.attempt? a = none := by
  unfold attempt?
  split
  · exact absurd (Or.inl rfl) h
  · exact absurd (Or.inr rfl) h
  · rfl

/-- Beside acceptances only the beginning of a session changes the report. -/
theorem report_move (hmove : Move o e o') (hnot : ¬ e.what.IsAcceptance) :
    o.bench.Retells o'.bench ∨ o.bench.Renews o'.bench := by
  cases hmove with
  | opens s hwork hbench =>
    obtain ⟨w, hprepares, hturn⟩ := Workshop.opens_cases hwork s
    rw [hbench] at hprepares
    have hbefore : o.bench.Retells w := by
      obtain ⟨_, _, rfl⟩ := hprepares
      exact ⟨rfl, rfl⟩
    rcases hturn with ⟨f, hturn⟩ | ⟨now, document, filename, data, mime, text, hturn⟩
    · rw [hturn]
      exact Or.inl hbefore
    · rw [hturn]
      rcases Workbench.report_open w now document filename data mime text with h | h
      · exact Or.inl ⟨h.opened.trans hbefore.opened, h.statusError.trans hbefore.statusError⟩
      · refine Or.inr ⟨?_, h.statusError, ?_⟩
        · rw [← hbefore.opened]
          exact h.opened
        · rw [← hbefore.opened]
          exact h.newer
  | reruns now => exact Or.inl (Workbench.touches_rerun o.bench now).alters.retells
  | cancels => exact Or.inl (Workbench.alters_cancel o.bench).retells
  | accepts => exact absurd (Or.inl rfl) hnot
  | presses k => exact Or.inl ⟨rfl, rfl⟩
  | @carries i task s htask hbench =>
    rcases bench_carry hbench i task with hcarry | ⟨owner, stream, hcarry⟩
    · rw [hcarry]
      exact Or.inl ⟨rfl, rfl⟩
    · rw [hcarry]
      exact Or.inl ⟨rfl, rfl⟩
  | @handles i d now hd =>
    have haccept : d ≠ .key .accept := fun hd => hnot (Or.inr (congrArg Happening.handles hd))
    exact Or.inl (Workbench.alters_handle o.bench now haccept).retells

/-! ## Trails -/

/-- A run with the attempts that were made in it, the oldest first.  At any time
the store may begin to fail in another way. -/
inductive Trail (start : Office) : List Attempt → Office → Prop where
  | nil : Trail start [] start
  | moves {tried : List Attempt} {o o' : Office} {e : Entry} (h : Trail start tried o)
      (hmove : Move o e o') : Trail start (tried ++ (o.attempt? e.what).toList) o'
  | falters {tried : List Attempt} {o : Office} (h : Trail start tried o)
      (failing : List (Access × Fault)) :
      Trail start tried { o with bench := o.bench.failingWith failing }

/-- Every run is a trail. -/
theorem exists_trail (hrun : ∃ h, Chronicle start h o) : ∃ tried, Trail start tried o := by
  obtain ⟨h, hrun⟩ := hrun
  induction hrun with
  | nil => exact ⟨[], .nil⟩
  | snoc _ hmove ih =>
    obtain ⟨tried, htrail⟩ := ih
    exact ⟨_, htrail.moves hmove⟩

/-- What holds between the attempts that were made and the office they led to.
The open session is the newest, attempts are made for newer and newer sessions,
and what is reported is the latest refusal of the newest one. -/
structure Reported (o : Office) (tried : List Attempt) : Prop where
  sound : o.Sound False
  newest : ∀ s, o.bench.session = some s → s.number = o.bench.opened
  number_le : ∀ a ∈ tried, a.number ≤ o.bench.opened
  ordered : tried.Pairwise fun a b => a.number ≤ b.number
  report : o.bench.statusError = Attempt.report (Attempt.refusals tried o.bench.opened)

theorem reported_start (store : Option Store) (client : Option ChatClient) (settings : Settings)
    (capabilities : Capabilities) : (Office.start store client settings capabilities).Reported [] :=
  ⟨Workbench.sound_start store client settings capabilities, fun s hs => (by cases hs),
    fun a ha => absurd ha List.not_mem_nil, List.Pairwise.nil, rfl⟩

/-- The session that is open after a move is the newest. -/
theorem newest_of_retells (hreported : o.Reported tried) (hmove : Move o e o')
    (hretells : o.bench.Retells o'.bench) {s' : Session} (hs' : o'.bench.session = some s') :
    s'.number = o'.bench.opened := by
  have hle := ((sound_move hreported.sound hmove).session s' hs').number_le
  have hopened := hretells.opened
  rcases change_of_move hreported.sound hmove hs' with hbegins | ⟨s, hs, hchange⟩
  · have hnew := hbegins.number
    omega
  · rw [hchange.number, hreported.newest s hs, hopened]

/-- An attempt is for the open session, which is the newest; a refusal is
reported. -/
theorem reported_accept (hreported : o.Reported tried) (hmove : Move o e o')
    (haccept : e.what.IsAcceptance) : o'.Reported (tried ++ (o.attempt? e.what).toList) := by
  have hsound := sound_move hreported.sound hmove
  have hbench := bench_of_acceptance hmove haccept
  have hopened : o'.bench.opened = o.bench.opened := by
    rw [hbench, Workbench.opened_accept]
  have hnewest : ∀ s, o'.bench.session = some s → s.number = o'.bench.opened := by
    intro s hs
    rw [hbench] at hs
    rw [hopened]
    exact hreported.newest s (Workbench.number_accept hs)
  have hstatus := Workbench.statusError_accept o.bench
  rw [← hbench, hreported.report] at hstatus
  rw [attempt?_of_acceptance haccept]
  cases hattempt : o.bench.attempt? with
  | none =>
    rw [hattempt] at hstatus
    rw [Option.toList_none, List.append_nil]
    refine ⟨hsound, hnewest, ?_, hreported.ordered, ?_⟩
    · rw [hopened]
      exact hreported.number_le
    · rw [hopened]
      exact hstatus
  | some a =>
    rw [hattempt] at hstatus
    obtain ⟨s, store, hs, -, -, ha⟩ := Workbench.attempt?_eq_some hattempt
    have hnumber : a.number = o.bench.opened := by
      rw [ha]
      exact hreported.newest s hs
    rw [Option.toList_some]
    refine ⟨hsound, hnewest, ?_, ?_, ?_⟩
    · rw [hopened]
      exact List.forall_mem_append.2
        ⟨hreported.number_le, List.forall_mem_singleton.2 hnumber.le⟩
    · refine List.pairwise_append.2 ⟨hreported.ordered, List.pairwise_singleton _ _, ?_⟩
      intro b hb a' ha'
      rw [List.mem_singleton.1 ha', hnumber]
      exact hreported.number_le b hb
    · rw [hopened, Attempt.refusals_snoc_of_eq hnumber, hstatus]
      cases hrefusal : a.refusal? with
      | none => simp [hrefusal]
      | some f => simp [hrefusal, Attempt.report_snoc]

theorem reported_move (hreported : o.Reported tried) (hmove : Move o e o') :
    o'.Reported (tried ++ (o.attempt? e.what).toList) := by
  by_cases haccept : e.what.IsAcceptance
  · exact reported_accept hreported hmove haccept
  · have hsound := sound_move hreported.sound hmove
    rw [attempt?_of_not_acceptance haccept, Option.toList_none, List.append_nil]
    rcases report_move hmove haccept with hretells | hrenews
    · refine ⟨hsound, fun s => newest_of_retells hreported hmove hretells, ?_,
        hreported.ordered, ?_⟩
      · rw [hretells.opened]
        exact hreported.number_le
      · rw [hretells.opened, hretells.statusError, hreported.report]
    · have hopened := hrenews.opened
      have holder : ∀ a ∈ tried, a.number < o'.bench.opened := by
        intro a ha
        have hle := hreported.number_le a ha
        omega
      refine ⟨hsound, ?_, fun a ha => (holder a ha).le, hreported.ordered, ?_⟩
      · intro s hs
        have hle := (hsound.session s hs).number_le
        have hnew := hrenews.newer s hs
        omega
      · rw [hrenews.statusError, Attempt.refusals_of_lt holder]
        rfl

/-- A store that begins to fail changes nothing at the workbench. -/
theorem reported_falters (hreported : o.Reported tried) (failing : List (Access × Fault)) :
    Office.Reported { o with bench := o.bench.failingWith failing } tried :=
  ⟨⟨hreported.sound.fired_le, hreported.sound.owner_le, fun s hs =>
      let hattends := hreported.sound.session s hs
      ⟨hattends.number_le, hattends.unfired, hattends.hasLlm, hattends.stands⟩⟩,
    hreported.newest, hreported.number_le, hreported.ordered, hreported.report⟩

theorem reported_trail (hstart : start.Reported []) (htrail : Trail start tried o) :
    o.Reported tried := by
  induction htrail with
  | nil => exact hstart
  | moves _ hmove ih => exact reported_move ih hmove
  | falters _ failing ih => exact reported_falters ih failing

/-! ## Reports -/

/-- An acceptance that succeeds leaves the report of what was refused before. -/
theorem report_of_accept_ok (hreported : o.Reported tried) (hok : o.bench.accept.2 = .ok true) :
    ∃ s, o.bench.session = some s ∧
      (o.bench.accept.1.statusError = "" ↔ Attempt.refusals tried s.number = []) := by
  obtain ⟨s, hs⟩ := Workbench.exists_of_accept_ok hok
  have hunrefused : o.bench.attempt?.bind (·.refusal?) = none := by
    cases hattempt : o.bench.attempt? with
    | none => rfl
    | some a => exact Attempt.refusal?_of_ok (Workbench.outcome_of_accept_ok hok hattempt)
  refine ⟨s, hs, ?_⟩
  rw [Workbench.statusError_accept, hunrefused, hreported.newest s hs]
  show o.bench.statusError = "" ↔ _
  rw [hreported.report]
  exact Attempt.report_eq_empty_iff _

/-- Where something is reported, the latest attempt failed, or the results that
it saved were refused before. -/
theorem latest_of_report (hreported : o.Reported tried) (hreport : o.bench.statusError ≠ "") :
    ∃ earlier a, tried = earlier ++ [a] ∧
      (a.outcome = .ok () → Attempt.refusals earlier a.number ≠ []) := by
  have hrefused : Attempt.refusals tried o.bench.opened ≠ [] := by
    intro hnone
    rw [hreported.report, hnone] at hreport
    exact hreport rfl
  obtain rfl | ⟨earlier, a, rfl⟩ := List.eq_nil_or_concat' tried
  · exact absurd rfl hrefused
  refine ⟨earlier, a, rfl, fun hok => ?_⟩
  have hunrefused := Attempt.refusal?_of_ok hok
  -- The attempts that come last are those for the newest session.
  have hnumber : a.number = o.bench.opened := by
    by_contra hne
    have hle := hreported.number_le a (by simp)
    have hordered := (List.pairwise_append.1 hreported.ordered).2.2
    refine hrefused (Attempt.refusals_of_lt fun b hb => ?_)
    rcases List.mem_append.1 hb with hb | hb
    · have hba := hordered b hb a (List.mem_singleton_self a)
      omega
    · rw [List.mem_singleton.1 hb]
      omega
  rw [Attempt.refusals_snoc_of_eq hnumber, hunrefused, Option.toList_none,
    List.append_nil] at hrefused
  rw [hnumber]
  exact hrefused

/-- What is reported is the latest refusal of the session that was opened last,
whatever became of its results since.  An acceptance that succeeds leaves nothing
reported exactly when these results were never refused, and a report for which
the latest attempt is not to blame is an earlier refusal of what was saved. -/
theorem reported_of_trail {store : Option Store} {client : Option ChatClient}
    {settings : Settings} {capabilities : Capabilities}
    (htrail : Trail (Office.start store client settings capabilities) tried o) :
    o.bench.statusError = Attempt.report (Attempt.refusals tried o.bench.opened) ∧
      (o.bench.accept.2 = .ok true → ∃ s, o.bench.session = some s ∧
        (o.bench.accept.1.statusError = "" ↔ Attempt.refusals tried s.number = [])) ∧
      (o.bench.statusError ≠ "" → ∃ earlier a, tried = earlier ++ [a] ∧
        (a.outcome = .ok () → Attempt.refusals earlier a.number ≠ [])) := by
  have hreported := reported_trail (reported_start store client settings capabilities) htrail
  exact ⟨hreported.report, report_of_accept_ok hreported, latest_of_report hreported⟩

/-- The office at which the image was read, the model has replied, and the store
has refused to save the document once. -/
def refusedOnce : Office :=
  { scannedOnce with
    bench := (scannedOnce.bench.failingWith [(.update, .store "disk full")]).accept.1 }

/-- The same office when its store is in order again. -/
def restored : Office := { refusedOnce with bench := refusedOnce.bench.failingWith [] }

theorem exists_trail_restored : ∃ tried, Trail gallery tried restored := by
  have hopened : Chronicle gallery _ (gallery.after imageOpened) :=
    Chronicle.nil.snoc (.opens _ (.given 1 "a.png" [1] "image/png" "") rfl)
  have hscanned : ∃ h, Chronicle gallery h scannedOnce := by
    apply_rules [exists_chronicle_serve]
    exact ⟨_, hopened⟩
  obtain ⟨tried, htrail⟩ := exists_trail hscanned
  exact ⟨_, ((htrail.falters [(.update, .store "disk full")]).moves .accepts).falters []⟩

/-- The results are saved at the second attempt. -/
theorem accept_restored : restored.bench.accept.2 = .ok true := by
  have hsaved : restored.bench.saved? = some 1 := by decide +kernel
  exact (Workbench.exists_of_saved? hsaved).1

theorem reported_restored : ∃ tried s, Trail gallery tried restored ∧
    restored.bench.statusError = Attempt.report (Attempt.refusals tried restored.bench.opened) ∧
    restored.bench.accept.2 = .ok true ∧ restored.bench.session = some s ∧
    (restored.bench.accept.1.statusError = "" ↔ Attempt.refusals tried s.number = []) ∧
    restored.bench.statusError ≠ "" ∧ ∃ earlier a, tried = earlier ++ [a] ∧
      (a.outcome = .ok () → Attempt.refusals earlier a.number ≠ []) := by
  obtain ⟨tried, htrail⟩ := exists_trail_restored
  have hreport : restored.bench.statusError ≠ "" := by decide +kernel
  obtain ⟨hstatus, haccepted, hlatest⟩ := reported_of_trail htrail
  obtain ⟨s, hs, hcleared⟩ := haccepted accept_restored
  exact ⟨tried, s, htrail, hstatus, accept_restored, hs, hcleared, hreport, hlatest hreport⟩

/-- The refusal is still reported when the results were saved after all. -/
theorem report_of_saved_restored : ∃ tried o, Trail gallery (tried ++ [⟨1, .ok ()⟩]) o ∧
    restored.bench.accept.2 = .ok true ∧ o.bench = restored.bench.accept.1 ∧
      o.bench.statusError = "save extraction: disk full" := by
  obtain ⟨tried, htrail⟩ := exists_trail_restored
  have hnumber : restored.bench.attempt?.map (·.number) = some 1 := by decide +kernel
  obtain ⟨⟨number, outcome⟩, hattempt, rfl⟩ := Option.map_eq_some_iff.1 hnumber
  obtain rfl : outcome = .ok () := Workbench.outcome_of_accept_ok accept_restored hattempt
  have hsaved := htrail.moves .accepts
  rw [attempt?_of_acceptance (Or.inl rfl), hattempt, Option.toList_some] at hsaved
  exact ⟨tried, _, hsaved, accept_restored, rfl, by decide +kernel⟩

end Office
end Intake
