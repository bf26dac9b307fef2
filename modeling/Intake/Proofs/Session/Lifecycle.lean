import Intake.Proofs.Session.Changes
import Intake.Proofs.Session.Saved

/-!
# The life of a step

Each step of a session waits, runs and ends, and only the model's step may
start once more.  A session whose pages could not be read is never saved, and
one whose model failed waits for a reply that can be read.

There are five groups.

* Steps.  `Session.Advances` is what one move may do to the steps of a
  session; `Change.advances` says that no change does more.
* Courses.  `Session.Course` is what a session goes through while it is open;
  `course_of_chronicle` finds it in a chronicle.
* Replies.  `Office.Replied` says that a reply which was heard as a whole has
  ended the model's step well; `replied_move` says that a move preserves it.
* Retries.  What a failed step of the model means for what follows.
* Results.  `advances_of_chronicle` is the result.
-/

namespace Intake

/-! ## Steps -/

/-- A step gets on: it starts, or it ends. -/
inductive StepStatus.GetsOn : StepStatus → StepStatus → Prop where
  | starts : GetsOn .pending .running
  | succeeds : GetsOn .running .done
  | fails : GetsOn .running .failed

namespace Session

/-- What one move may do to the steps of a session. -/
structure Advances (s : Session) (e : Entry) (s' : Session) : Prop where
  /-- A step stays as far as it is, or it gets on.  Only the model's step runs
  again once it has ended, and only by a rerun. -/
  status (k : LayerKind) : (s'.info k).status = (s.info k).status ∨
    (s.info k).status.GetsOn (s'.info k).status ∨
      k = .llm ∧ e.what.IsRerun ∧ (s.info k).status.IsEnded ∧ (s'.info k).status = .running
  /-- The other steps do not change at all once they have ended. -/
  ended (k : LayerKind) (hk : k ≠ .llm) (hended : (s.info k).status.IsEnded) :
    s'.info k = s.info k
  /-- A rerun changes no other step. -/
  rerun (hrerun : e.what.IsRerun) (k : LayerKind) (hk : k ≠ .llm) : s'.info k = s.info k

theorem ne_running_of_isEnded {t : StepStatus} (h : t.IsEnded) : t ≠ .running := by
  rintro rfl
  exact not_isEnded_running h

/-- Which steps apply, and the steps before the model's, are as they were. -/
structure Keeps (s s' : Session) : Prop where
  text : s'.text = s.text
  ocr : s'.ocr = s.ocr
  applies : s'.applies = s.applies

/-- The pages' step went on. -/
structure Reads (s : Session) (e : Entry) (s' : Session) : Prop where
  stands : s.Stands (some .ocr)
  heard : ∃ p, e.what = .handles (.progress s.number p)
  text : s'.text = s.text
  ocr : s'.ocr.status = .running ∨ s'.ocr.status.IsEnded
  applies : s'.applies = s.applies

variable {s s' s'' : Session} {e : Entry}

theorem Keeps.trans (h : s.Keeps s') (h' : s'.Keeps s'') : s.Keeps s'' :=
  ⟨h'.text.trans h.text, h'.ocr.trans h.ocr, h'.applies.trans h.applies⟩

theorem keeps_replyGrown (s : Session) (piece : String) : s.Keeps (s.replyGrown piece) := by
  obtain ⟨received, logs, hgrown, -⟩ := Workbench.replyGrown_eq s piece
  rw [hgrown]
  exact ⟨rfl, rfl, rfl⟩

theorem keeps_replyEnded (s : Session) (now : Float) : s.Keeps (s.replyEnded now) :=
  ⟨rfl, rfl, rfl⟩

theorem status_replyGrown (s : Session) (piece : String) :
    (s.replyGrown piece).llm.status = s.llm.status := by
  obtain ⟨received, logs, hgrown, -⟩ := Workbench.replyGrown_eq s piece
  rw [hgrown]

theorem GoesOn.keeps {command : Option Command} (h : s.GoesOn command s') : s.Keeps s' := by
  cases h with
  | asks => exact ⟨rfl, rfl, rfl⟩
  | finishes => exact ⟨rfl, rfl, rfl⟩

theorem Concludes.keeps (h : s.Concludes s') : s.Keeps s' := by
  cases h with
  | reads => exact ⟨rfl, rfl, rfl⟩
  | refuses => exact ⟨rfl, rfl, rfl⟩
  | overflows => exact ⟨rfl, rfl, rfl⟩

/-- Only what is heard from the pages changes a step before the model's. -/
theorem Change.keeps_or_reads (h : s.Change e s') : s.Keeps s' ∨ s.Reads e s' := by
  cases h with
  | views => exact Or.inl ⟨rfl, rfl, rfl⟩
  | pagesMoved hstands hheard =>
    exact Or.inr ⟨hstands, ⟨_, hheard⟩, rfl, Or.inl hstands.ocr.2, rfl⟩
  | pagesFailed now hstands hheard _ hnext =>
    obtain ⟨htext, hocr, happlies⟩ := hnext.keeps
    exact Or.inr ⟨hstands, ⟨_, hheard⟩, htext, Or.inr (Or.inr (by rw [hocr]; rfl)), happlies⟩
  | pagesRead now hstands hheard _ _ hnext =>
    obtain ⟨htext, hocr, happlies⟩ := hnext.keeps
    exact Or.inr ⟨hstands, ⟨_, hheard⟩, htext, Or.inr (Or.inl (by rw [hocr]; rfl)), happlies⟩
  | replyOpened => exact Or.inl ⟨rfl, rfl, rfl⟩
  | replyGrown => exact Or.inl (keeps_replyGrown s _)
  | replyFailed => exact Or.inl ⟨rfl, rfl, rfl⟩
  | replyEnded now _ _ _ _ _ hread =>
    exact Or.inl ((keeps_replyGrown s _).trans ((keeps_replyEnded _ now).trans hread.keeps))
  | reruns => exact Or.inl ⟨rfl, rfl, rfl⟩

theorem Change.applies (h : s.Change e s') : s'.applies = s.applies := by
  rcases h.keeps_or_reads with hkeeps | hreads
  · exact hkeeps.applies
  · exact hreads.applies

theorem Change.text (h : s.Change e s') : s'.text = s.text := by
  rcases h.keeps_or_reads with hkeeps | hreads
  · exact hkeeps.text
  · exact hreads.text

/-- The pages' step changes only while it runs. -/
theorem Change.ocr_of_ne_running (h : s.Change e s') (hocr : s.ocr.status ≠ .running) :
    s'.ocr = s.ocr := by
  rcases h.keeps_or_reads with hkeeps | hreads
  · exact hkeeps.ocr
  · exact absurd hreads.stands.ocr.2 hocr

/-- The model's step stays, gets on, or runs again by a rerun that asks. -/
theorem Change.llm_cases (h : s.Change e s') : s'.llm.status = s.llm.status ∨
    s.llm.status.GetsOn s'.llm.status ∨
      (e.what.IsRerun ∧ e.asks s.number) ∧ s.llm.status.IsEnded ∧ s'.llm.status = .running := by
  have hpages : ∀ (s₁ : Session) {command : Option Command}, s.Stands (some .ocr) →
      s₁.llm = s.llm → s₁.GoesOn command s' →
      s'.llm.status = s.llm.status ∨ s.llm.status.GetsOn s'.llm.status := by
    intro s₁ command hstands hllm hnext
    have hpending : s.llm.status = .pending := hstands.llm
    cases hnext with
    | asks now model client messages =>
      refine Or.inr ?_
      rw [hpending]
      exact .starts
    | finishes => exact Or.inl (by rw [← hllm])
  cases h with
  | views => exact Or.inl rfl
  | pagesMoved => exact Or.inl rfl
  | pagesFailed now hstands _ _ hnext =>
    exact (hpages (s.pagesFailed now _) hstands rfl hnext).imp_right Or.inl
  | pagesRead now hstands _ _ _ hnext =>
    exact (hpages (s.pagesRead now _) hstands rfl hnext).imp_right Or.inl
  | replyOpened => exact Or.inl rfl
  | replyGrown => exact Or.inl (status_replyGrown s _)
  | replyFailed now hstands =>
    refine Or.inr (Or.inl ?_)
    rw [hstands.llm.2]
    exact .fails
  | replyEnded now hstands _ _ _ _ hread =>
    cases hread with
    | reads =>
      refine Or.inr (Or.inl ?_)
      rw [hstands.llm.2]
      exact .succeeds
    | refuses =>
      refine Or.inr (Or.inl ?_)
      rw [hstands.llm.2]
      exact .fails
    | overflows => exact Or.inl (status_replyGrown s _)
  | reruns now model client messages hstands hllm hrerun hcommand =>
    have hfits := hstands.llm
    rw [hllm] at hfits
    have hasks : e.asks s.number := by
      rw [Entry.asks, hcommand]
      exact beq_self_eq_true s.number
    exact Or.inr (Or.inr ⟨⟨hrerun, hasks⟩, hfits, rfl⟩)

/-- No change of a session does more to its steps than it may. -/
theorem Change.advances (h : s.Change e s') : s.Advances e s' := by
  refine ⟨fun k => ?_, fun k hk hended => ?_, fun hrerun k hk => ?_⟩
  · cases k with
    | text => exact Or.inl (congrArg StepInfo.status h.text)
    | llm =>
      exact h.llm_cases.imp_right fun hcases =>
        hcases.imp_right fun ⟨⟨hrerun, _⟩, hagain⟩ => ⟨rfl, hrerun, hagain⟩
    | ocr =>
      rcases h.keeps_or_reads with hkeeps | hreads
      · exact Or.inl (congrArg StepInfo.status hkeeps.ocr)
      · have hrunning : s.ocr.status = .running := hreads.stands.ocr.2
        show s'.ocr.status = s.ocr.status ∨ s.ocr.status.GetsOn s'.ocr.status ∨ _
        rw [hrunning]
        rcases hreads.ocr with hstatus | hstatus | hstatus
        · exact Or.inl hstatus
        · exact Or.inr (Or.inl (hstatus ▸ .succeeds))
        · exact Or.inr (Or.inl (hstatus ▸ .fails))
  · cases k with
    | text => exact h.text
    | ocr => exact h.ocr_of_ne_running (ne_running_of_isEnded hended)
    | llm => exact absurd rfl hk
  · cases k with
    | text => exact h.text
    | ocr =>
      rcases h.keeps_or_reads with hkeeps | hreads
      · exact hkeeps.ocr
      · obtain ⟨p, hheard⟩ := hreads.heard
        rcases hrerun with hwhat | hwhat
        · cases hheard.symm.trans hwhat
        · cases hheard.symm.trans hwhat
    | llm => exact absurd rfl hk

/-! ## Courses -/

/-- What a session goes through while it stays open. -/
inductive Course (s : Session) : List Entry → Session → Prop where
  | nil : Course s [] s
  | snoc {h : List Entry} {e : Entry} {s' s'' : Session} (hcourse : Course s h s')
      (hchange : s'.Change e s'') : Course s (h ++ [e]) s''

variable {h : List Entry}

theorem Course.number (hcourse : s.Course h s') : s'.number = s.number := by
  induction hcourse with
  | nil => rfl
  | snoc _ hchange ih => exact hchange.number.trans ih

theorem Course.applies (hcourse : s.Course h s') : s'.applies = s.applies := by
  induction hcourse with
  | nil => rfl
  | snoc _ hchange ih => exact hchange.applies.trans ih

theorem Course.text (hcourse : s.Course h s') : s'.text = s.text := by
  induction hcourse with
  | nil => rfl
  | snoc _ hchange ih => exact hchange.text.trans ih

theorem Course.ocr_of_ne_running (hcourse : s.Course h s') (hocr : s.ocr.status ≠ .running) :
    s'.ocr = s.ocr := by
  induction hcourse with
  | nil => rfl
  | snoc _ hchange ih => exact (hchange.ocr_of_ne_running (ih.symm ▸ hocr)).trans ih

/-- A change that asks the model is a rerun, unless the pages' step runs. -/
theorem Change.isRerun_of_asks (hchange : s.Change e s') (hocr : s.ocr.status ≠ .running)
    (hasks : e.asks s.number) : e.what.IsRerun := by
  have hno : ∀ {command : Option Command}, e.command = command →
      command.any (·.asks s.number) = false → e.what.IsRerun := by
    intro command hcommand hnone
    rw [Entry.asks, hcommand, hnone] at hasks
    cases hasks
  have hpages : s.Stands (some .ocr) → e.what.IsRerun :=
    fun hstands => absurd hstands.ocr.2 hocr
  cases hchange with
  | views _ _ _ _ hcommand => exact hno hcommand rfl
  | pagesMoved hstands => exact hpages hstands
  | pagesFailed now hstands => exact hpages hstands
  | pagesRead now hstands => exact hpages hstands
  | replyOpened _ _ hcommand => exact hno hcommand rfl
  | replyGrown _ _ _ hcommand => exact hno hcommand rfl
  | replyFailed _ _ _ _ hcommand => exact hno hcommand rfl
  | replyEnded _ _ _ _ _ hcommand => exact hno hcommand rfl
  | reruns _ _ _ _ _ _ hrerun => exact hrerun

/-- A step of the model that has failed stays failed until the model is asked
again. -/
theorem Change.llm_of_failed (hchange : s.Change e s') (hfailed : s.llm.status = .failed)
    (hasks : ¬ e.asks s.number) : s'.llm.status = .failed := by
  rcases hchange.llm_cases with hsame | hgets | ⟨⟨-, hasked⟩, -⟩
  · exact hsame.trans hfailed
  · rw [hfailed] at hgets
    cases hgets
  · exact absurd hasked hasks

/-- Without a question a step of the model that has failed stays failed. -/
theorem Course.llm_of_failed (hcourse : s.Course h s') (hfailed : s.llm.status = .failed)
    (hasks : ∀ e ∈ h, ¬ e.asks s.number) : s'.llm.status = .failed := by
  induction hcourse with
  | nil => exact hfailed
  | snoc hcourse hchange ih =>
    obtain ⟨hearlier, hlast⟩ := List.forall_mem_append.1 hasks
    rw [← hcourse.number] at hlast
    exact hchange.llm_of_failed (ih hearlier) (hlast _ (List.mem_singleton_self _))

end Session

namespace Office

variable {o o' : Office} {s s' : Session} {h later : List Entry} {e : Entry}

theorem opened_le_of_chronicle (hrun : Chronicle o h o') : o.bench.opened ≤ o'.bench.opened := by
  induction hrun with
  | nil => exact le_refl _
  | snoc _ hmove ih => exact ih.trans (spares_move hmove).2

/-- A session that is still open has gone through what was written down. -/
theorem course_of_chronicle (hrecorded : o.Recorded h) (hs : o.bench.session = some s)
    (hrun : Chronicle o later o') (hs' : o'.bench.session = some s')
    (hnumber : s'.number = s.number) : s.Course later s' := by
  induction hrun generalizing s' with
  | nil =>
    obtain rfl : s = s' := Option.some.inj (hs.symm.trans hs')
    exact .nil
  | snoc hrun hmove ih =>
    rcases change_of_move (recorded_append hrecorded hrun).sound hmove hs' with
      ⟨hnew, -⟩ | ⟨s₁, hs₁, hchange⟩
    · have hle := (hrecorded.sound.session s hs).number_le
      have hopened := opened_le_of_chronicle hrun
      omega
    · exact (ih hs₁ (hchange.number.symm.trans hnumber)).snoc hchange

end Office

/-! ## Replies -/

namespace Reply

variable {cs : List Chunk} {c : Chunk} {hints : Hints}

theorem not_whole_nil : ¬ Whole [] hints := by
  rintro ⟨⟨c, hends, -⟩, -⟩
  obtain ⟨earlier, hsplit, -⟩ := hends.split
  simp at hsplit

/-- A whole reply ends with its last chunk. -/
theorem Whole.last (h : Whole (cs ++ [c]) hints) : c.IsLast ∧ c.fault = none := by
  obtain ⟨⟨c', hends, hfault⟩, -⟩ := h
  obtain ⟨earlier, hsplit, -⟩ := hends.split
  obtain rfl : c = c' := List.singleton_injective (List.append_inj' hsplit rfl).2
  exact ⟨hends.last, hfault⟩

end Reply

namespace Entry

variable {number : Nat} {h later : List Entry} {e : Entry} {cs : List Chunk}

theorem chunk?_of_handles {d : Delivery} (hwhat : e.what = .handles d) :
    e.chunk? number = d.chunk? number := by
  rw [chunk?, heard?, hwhat]
  rfl

theorem not_asks_of_latestReply (hnone : latestReply number h = none) :
    ∀ e ∈ h, ¬ e.asks number := by
  induction h using List.reverseRecOn with
  | nil => exact fun _ he => (List.not_mem_nil he).elim
  | append_singleton h e ih =>
    rw [latestReply_append, replyAfter] at hnone
    split at hnone
    · cases hnone
    · rename_i hasks
      exact List.forall_mem_append.2 ⟨ih (Option.map_eq_none_iff.1 hnone),
        List.forall_mem_singleton.2 hasks⟩

/-- What was heard of a reply does not depend on what came before its
question. -/
theorem latestReply_append_of_some (h : List Entry) (hreply : latestReply number later = some cs) :
    latestReply number (h ++ later) = some cs := by
  induction later using List.reverseRecOn generalizing cs with
  | nil => cases hreply
  | append_singleton later e ih =>
    rw [latestReply_append, replyAfter] at hreply
    rw [← List.append_assoc, latestReply_append, replyAfter]
    split
    · rename_i hasks
      rw [if_pos hasks] at hreply
      exact hreply
    · rename_i hasks
      rw [if_neg hasks] at hreply
      obtain ⟨before, hbefore, rfl⟩ := Option.map_eq_some_iff.1 hreply
      rw [ih hbefore]
      rfl

theorem latestReply_of_split {ask : Entry} (h : List Entry) (hask : ask.asks number)
    (hlater : ∀ e ∈ later, ¬ e.asks number) :
    latestReply number (h ++ ask :: later) = some (chunks number later) := by
  induction later using List.reverseRecOn with
  | nil =>
    rw [latestReply_append]
    exact if_pos hask
  | append_singleton later e ih =>
    obtain ⟨hearlier, hlast⟩ := List.forall_mem_append.1 hlater
    rw [← List.cons_append, ← List.append_assoc, latestReply_append, ih hearlier, chunks, chunks,
      filterMap_snoc]
    exact if_neg (hlast e (List.mem_singleton_self e))

end Entry

namespace Session

variable {s s' : Session} {e : Entry} {c : Chunk}

/-- A chunk that was heard goes on with the reply or ends it. -/
theorem Change.chunk_cases (h : s.Change e s') (hc : e.chunk? s.number = some c) :
    s.Stands (some .llm) ∧ (¬ c.IsLast ∨ c.fault ≠ none ∨
      ∃ now, ((s.replyGrown c.text).replyEnded now).Concludes s') := by
  have hsilent : e.chunk? s.number = none → s.Stands (some .llm) ∧ (¬ c.IsLast ∨ c.fault ≠ none ∨
      ∃ now, ((s.replyGrown c.text).replyEnded now).Concludes s') :=
    fun hnone => by cases hnone.symm.trans hc
  have hchunk : ∀ {c' : Chunk}, e.what = .handles (.chunk s.number c') → c' = c := by
    intro c' hheard
    rw [Entry.chunk?_of_handles hheard, Delivery.chunk?, if_pos rfl] at hc
    exact Option.some.inj hc
  cases h with
  | views _ _ _ hheard hcommand =>
    refine hsilent (Entry.quiet_of_owner_ne hheard fun c' hc' => ?_).chunk
    cases hcommand.symm.trans hc'
  | pagesMoved _ hheard => exact hsilent (Entry.chunk?_of_handles hheard)
  | pagesFailed _ _ hheard => exact hsilent (Entry.chunk?_of_handles hheard)
  | pagesRead _ _ hheard => exact hsilent (Entry.chunk?_of_handles hheard)
  | replyOpened _ hheard => exact hsilent (Entry.chunk?_of_handles hheard)
  | replyGrown hstands hheard hlast =>
    obtain rfl := hchunk hheard
    exact ⟨hstands, Or.inl hlast⟩
  | replyFailed now hstands hheard hfault =>
    obtain rfl := hchunk hheard
    exact ⟨hstands, Or.inr (Or.inl (by rw [hfault]; exact Option.some_ne_none _))⟩
  | replyEnded now hstands hheard _ _ _ hread =>
    obtain rfl := hchunk hheard
    exact ⟨hstands, Or.inr (Or.inr ⟨now, hread⟩)⟩
  | reruns _ _ _ _ _ _ hrerun =>
    rcases hrerun with hwhat | hwhat
    · refine hsilent ?_
      rw [Entry.chunk?, Entry.heard?, hwhat]
      rfl
    · exact hsilent (Entry.chunk?_of_handles hwhat)

end Session

namespace Office

variable {start o o' : Office} {s s' : Session} {h later : List Entry} {e : Entry}

/-- A reply that was heard as a whole has ended the model's step well. -/
def Replied (o : Office) (h : List Entry) : Prop :=
  ∀ s cs hints, o.bench.session = some s → Entry.latestReply s.number h = some cs →
    Reply.Whole cs hints → s.llm.status = .done

theorem replied_change (hrecorded : o.Recorded h) (hreplied : o.Replied h)
    (hs : o.bench.session = some s) (hchange : s.Change e s') {cs : List Chunk} {hints : Hints}
    (hreply : Entry.latestReply s.number (h ++ [e]) = some cs) (hwhole : Reply.Whole cs hints) :
    s'.llm.status = .done := by
  rw [Entry.latestReply_append, replyAfter] at hreply
  split at hreply
  · cases hreply
    exact absurd hwhole Reply.not_whole_nil
  · rename_i hasks
    obtain ⟨before, hbefore, rfl⟩ := Option.map_eq_some_iff.1 hreply
    cases hc : e.chunk? s.number with
    | none =>
      rw [hc, Option.toList_none, List.append_nil] at hwhole
      have hdone := hreplied s before hints hs hbefore hwhole
      rcases hchange.llm_cases with hsame | hgets | ⟨⟨-, hasked⟩, -⟩
      · exact hsame.trans hdone
      · rw [hdone] at hgets
        cases hgets
      · exact absurd hasked hasks
    | some c =>
      rw [hc, Option.toList_some] at hwhole
      obtain ⟨hlast, hfault⟩ := hwhole.last
      obtain ⟨hstands, hmore | hbroken | ⟨now, hread⟩⟩ := hchange.chunk_cases hc
      · exact absurd hlast hmore
      · exact absurd hfault hbroken
      · -- The text that was read is the content of all chunks.
        obtain ⟨heard, htold, hjoin⟩ := (hrecorded.tells s hs).1.reply.asked hstands.llm.2
        obtain rfl : before = heard := Option.some.inj (hbefore.symm.trans htold)
        obtain ⟨received, logs, hgrown, hgrows⟩ := Workbench.replyGrown_eq s c.text
        have htext : ((s.replyGrown c.text).replyEnded now).replyText =
            Chunk.joined (before ++ [c]) := by
          rw [hgrown, Chunk.joined_append, ← hjoin]
          exact hgrows
        have hok := hwhole.2
        rw [← htext] at hok
        cases hread with
        | reads => rfl
        | refuses hrefused => cases hok.symm.trans hrefused
        | overflows hover => cases hok.symm.trans hover

theorem replied_move (hrecorded : o.Recorded h) (hreplied : o.Replied h) (hmove : Move o e o') :
    o'.Replied (h ++ [e]) := by
  intro s' cs hints hs' hreply hwhole
  rcases change_of_move hrecorded.sound hmove hs' with ⟨hnew, -⟩ | ⟨s, hs, hchange⟩
  · rw [Entry.latestReply_append, (hrecorded.fresh s'.number hnew).2, replyAfter] at hreply
    split at hreply
    · cases hreply
      exact absurd hwhole Reply.not_whole_nil
    · cases hreply
  · rw [hchange.number] at hreply
    exact replied_change hrecorded hreplied hs hchange hreply hwhole

theorem replied_append (hrecorded : o.Recorded h) (hreplied : o.Replied h)
    (hrun : Chronicle o later o') : o'.Replied (h ++ later) := by
  induction hrun with
  | nil =>
    rw [List.append_nil]
    exact hreplied
  | snoc hrun hmove ih =>
    rw [← List.append_assoc]
    exact replied_move (recorded_append hrecorded hrun) ih hmove

/-- The model's step has ended well exactly when its latest reply was heard as
a whole. -/
theorem llm_done_iff (hrecorded : o.Recorded h) (hreplied : o.Replied h)
    (hs : o.bench.session = some s) : s.llm.status = .done ↔
      ∃ cs hints, Entry.latestReply s.number h = some cs ∧ Reply.Whole cs hints := by
  constructor
  · intro hdone
    obtain ⟨cs, hints, hreply, -, hwhole⟩ := (hrecorded.tells s hs).1.reply.replied hdone
    exact ⟨cs, hints, hreply, hwhole⟩
  · rintro ⟨cs, hints, hreply, hwhole⟩
    exact hreplied s cs hints hs hreply hwhole

/-! ## Retries -/

theorem standing_of_llm_failed {k? : Option LayerKind} (hstands : s.Stands k?)
    (hfailed : s.llm.status = .failed) : s.Standing .lt .lt true := by
  match k?, hstands with
  | none, hstands => exact hstands
  | some .ocr, hstands => cases (show s.llm.status = .pending from hstands.llm).symm.trans hfailed
  | some .llm, hstands => cases hstands.llm.2.symm.trans hfailed

/-- A session whose model alone has failed may be accepted once the model's
step has ended well. -/
theorem canAccept_iff_llm_done {k? : Option LayerKind} (hstands : s.Stands k?)
    (hfailed : s.llm.status = .failed)
    (honly : ∀ k ∈ s.active, (s.info k).status = .failed → k = .llm) (hcourse : s.Course h s')
    (hcoherent : s'.Coherent) : s'.canAccept = true ↔ s'.llm.status = .done := by
  have hstanding := standing_of_llm_failed hstands hfailed
  have hactive : s'.active = s.active := by
    rw [Session.active, Session.active, hcourse.applies]
  rw [hcoherent.canAccept_iff, hactive]
  constructor
  · intro hall
    exact hall .llm ((Session.mem_active_iff s .llm).2
      (Session.applies_of_failed hstanding.llm hfailed))
  · intro hdone k hk
    have happlies := (Session.mem_active_iff s k).1 hk
    have hended := Session.isEnded_of_done hstanding hk
    cases k with
    | text =>
      show s'.text.status = .done
      rw [hcourse.text]
      exact hended.resolve_right (Session.text_ne_failed hstanding)
    | ocr =>
      show s'.ocr.status = .done
      rw [hcourse.ocr_of_ne_running (Session.ne_running_of_isEnded hended)]
      exact hended.resolve_right fun hocr => by cases honly .ocr hk hocr
    | llm => exact hdone

/-- Once the pages' step does not run, the model is asked only by reruns. -/
theorem isRerun_of_asks (hrecorded : o.Recorded h) (hs : o.bench.session = some s)
    (hocr : s.ocr.status ≠ .running) (hrun : Chronicle o later o') (he : e ∈ later)
    (hasks : e.asks s.number) : e.what.IsRerun := by
  obtain ⟨before, after, rfl⟩ := List.append_of_mem he
  obtain ⟨o₁, o₂, hbefore, hmove, -⟩ := hrun.split
  have hrecorded₁ := recorded_append hrecorded hbefore
  obtain ⟨c, hc, hcasks⟩ := (Option.any_eq_true _ _).1 hasks
  obtain ⟨s₂, hs₂, hnumber⟩ := (recorded_move hrecorded₁ hmove).2.attended c hc
  rw [Command.owner_of_asks hcasks] at hnumber
  rcases change_of_move hrecorded₁.sound hmove hs₂ with ⟨hnew, -⟩ | ⟨s₁, hs₁, hchange⟩
  · have hle := (hrecorded.sound.session s hs).number_le
    have hopened := opened_le_of_chronicle hbefore
    omega
  · have hsame := hchange.number.symm.trans hnumber
    have hcourse := course_of_chronicle hrecorded hs hbefore hs₁ hsame
    have hocr₁ : s₁.ocr.status ≠ .running := by
      rw [hcourse.ocr_of_ne_running hocr]
      exact hocr
    rw [← hsame] at hasks
    exact hchange.isRerun_of_asks hocr₁ hasks

theorem ocr_ne_running {llm : Ordering} {done : Bool} (hstanding : s.Standing .lt llm done) :
    s.ocr.status ≠ .running := by
  have hocr := hstanding.ocr
  cases happlies : s.hasOcr with
  | true =>
    rw [happlies] at hocr
    exact Session.ne_running_of_isEnded hocr
  | false =>
    rw [happlies] at hocr
    rw [show s.ocr.status = .pending from hocr]
    exact StepStatus.noConfusion

/-- A session whose model alone has failed may be accepted exactly when a later
question was answered by a reply that can be read. -/
theorem canAccept_iff_of_llm_failed (hrecorded : o.Recorded h) (hreplied : o.Replied h)
    (hs : o.bench.session = some s) (hfailed : s.llm.status = .failed)
    (honly : ∀ k ∈ s.active, (s.info k).status = .failed → k = .llm) (hrun : Chronicle o later o')
    (hs' : o'.bench.session = some s') (hnumber : s'.number = s.number) :
    s'.canAccept = true ↔
      ∃ cs hints, LatestReply o later o' s.number cs ∧ Reply.Whole cs hints := by
  obtain ⟨k?, hstands, -⟩ := (hrecorded.sound.session s hs).stands
  have hrecorded' := recorded_append hrecorded hrun
  have hreplied' := replied_append hrecorded hreplied hrun
  obtain ⟨k'?, hstands', -⟩ := (hrecorded'.sound.session s' hs').stands
  have hcourse := course_of_chronicle hrecorded hs hrun hs' hnumber
  rw [canAccept_iff_llm_done hstands hfailed honly hcourse (Session.coherent_of_stands hstands'),
    llm_done_iff hrecorded' hreplied' hs', hnumber]
  constructor
  · rintro ⟨cs, hints, hreply, hwhole⟩
    cases hlater : Entry.latestReply s.number later with
    | none =>
      have hstill := hcourse.llm_of_failed hfailed (Entry.not_asks_of_latestReply hlater)
      have hdone := hreplied' s' cs hints hs' (hnumber.symm ▸ hreply) hwhole
      cases hstill.symm.trans hdone
    | some cs' =>
      obtain rfl : cs' = cs :=
        Option.some.inj ((Entry.latestReply_append_of_some h hlater).symm.trans hreply)
      exact ⟨cs', hints, latestReply_of_eq_some hrecorded hrun hlater, hwhole⟩
  · rintro ⟨cs, hints, hreply, hwhole⟩
    obtain ⟨earlier, ask, after, o₁, o₂, rfl, -, -, -, hask, -, hafter, rfl⟩ := hreply
    exact ⟨_, hints,
      Entry.latestReply_append_of_some h (Entry.latestReply_of_split earlier hask hafter), hwhole⟩

/-- The results of a session whose pages could not be read are never saved. -/
theorem not_saved_of_ocr_failed (hrecorded : o.Recorded h) (hs : o.bench.session = some s)
    (hfailed : s.ocr.status = .failed) (hrun : Chronicle o later o') (he : e ∈ later) :
    e.saved ≠ some s.number := by
  intro hsaved
  obtain ⟨before, after, rfl⟩ := List.append_of_mem he
  obtain ⟨o₁, o₂, hbefore, hmove, -⟩ := hrun.split
  obtain ⟨s₁, hs₁, hnumber, haccept, -⟩ :=
    Workbench.accept_of_saved? (saved?_of_saved hmove hsaved).2
  have hcourse := course_of_chronicle hrecorded hs hbefore hs₁ hnumber
  have hocr : s₁.ocr = s.ocr :=
    hcourse.ocr_of_ne_running (Session.ne_running_of_isEnded (Or.inr hfailed))
  obtain ⟨k?, hstands, -⟩ := ((recorded_append hrecorded hbefore).sound.session s₁ hs₁).stands
  have hocr₁ : s₁.ocr.status = .failed := (congrArg StepInfo.status hocr).trans hfailed
  have hactive : .ocr ∈ s₁.active := (Session.mem_active_iff s₁ .ocr).2 (by
    obtain ⟨ocr, llm, done, hstanding⟩ := Session.standing_of_stands hstands
    exact Session.applies_of_failed hstanding.ocr hocr₁)
  have hdone := (Session.coherent_of_stands hstands).canAccept_iff.1 haccept .ocr hactive
  cases (show s₁.ocr.status = .done from hdone).symm.trans hocr₁

/-! ## Results -/

/-- What happens to the steps of a session.  Between two states of a session
each step stays, starts or ends; only a rerun lets a step run again, and that is
the model's.  Once the pages' step has failed no results of the session are ever
saved.  Once the model's step alone has failed the model is asked only by
reruns, and the results may be saved exactly when the reply to the latest of
them was heard as a whole and can be read. -/
theorem advances_of_chronicle {store : Option Store} {client : Option ChatClient}
    {settings : Settings} {capabilities : Capabilities}
    (hrun : Chronicle (.start store client settings capabilities) h o)
    (hs : o.bench.session = some s) :
    (∀ e o' s', Move o e o' → o'.bench.session = some s' → s'.number = s.number →
      s.Advances e s') ∧
    (s.ocr.status = .failed →
      ∀ later o', Chronicle o later o' → ∀ e ∈ later, e.saved ≠ some s.number) ∧
    (s.llm.status = .failed → (∀ k ∈ s.active, (s.info k).status = .failed → k = .llm) →
      ∀ later o' s', Chronicle o later o' → o'.bench.session = some s' → s'.number = s.number →
        (∀ e ∈ later, e.asks s.number → e.what.IsRerun) ∧
        (s'.canAccept = true ↔
          ∃ cs hints, LatestReply o later o' s.number cs ∧ Reply.Whole cs hints)) := by
  have hstart := recorded_start store client settings capabilities
  have hrecorded := recorded_of_chronicle hstart hrun
  have hreplied := replied_append hstart (fun _ _ _ _ hreply => by cases hreply) hrun
  refine ⟨fun e o' s' hmove hs' hnumber => ?_, fun hfailed later o' hlater e he => ?_,
    fun hfailed honly later o' s' hlater hs' hnumber => ⟨fun e he hasks => ?_, ?_⟩⟩
  · rcases change_of_move hrecorded.sound hmove hs' with ⟨hnew, -⟩ | ⟨s₁, hs₁, hchange⟩
    · have hle := (hrecorded.sound.session s hs).number_le
      omega
    · obtain rfl : s = s₁ := Option.some.inj (hs.symm.trans hs₁)
      exact hchange.advances
  · exact not_saved_of_ocr_failed hrecorded hs hfailed hlater he
  · obtain ⟨k?, hstands, -⟩ := (hrecorded.sound.session s hs).stands
    have hocr := ocr_ne_running (standing_of_llm_failed hstands hfailed)
    exact isRerun_of_asks hrecorded hs hocr hlater he hasks
  · exact canAccept_iff_of_llm_failed hrecorded hreplied hs hfailed honly hlater hs' hnumber

/-- The office in which the image was read and the model has replied with
nothing that can be read. -/
def misheard : Office :=
  (gallery.after imageOpened |>.serve { bench := gallery.bench, stepwise := true }
    |>.serve readingRoom |>.serve answering |>.serve (saying { text := "no", done := true }))

/-- The office in which the model was asked again and has replied well. -/
def heardAgain : Office :=
  (misheard.strike .down |>.strike .rerun |>.serve answering
    |>.serve (saying { text := "\x7b\"summary\":\"second\"\x7d", done := true }))

theorem advances_misheard : ∃ h s later s', Chronicle gallery h misheard ∧
    misheard.bench.session = some s ∧ Chronicle misheard later heardAgain ∧
    heardAgain.bench.session = some s' ∧ s'.number = s.number ∧ s.canAccept = false ∧
    (∀ e ∈ later, e.asks s.number → e.what.IsRerun) ∧
    ∃ cs hints, LatestReply misheard later heardAgain s.number cs ∧ Reply.Whole cs hints := by
  have hopened : Chronicle gallery _ (gallery.after imageOpened) :=
    Chronicle.nil.snoc (.opens _ (.given 1 "a.png" [1] "image/png" "") rfl)
  have hearlier : ∃ h, Chronicle gallery h misheard := by
    apply_rules [exists_chronicle_serve]
    exact ⟨_, hopened⟩
  have hagain : ∃ later, Chronicle misheard later heardAgain :=
    exists_chronicle_serve (exists_chronicle_serve
      (exists_chronicle_strike (exists_chronicle_strike ⟨_, .nil⟩ .down) .rerun) _) _
  obtain ⟨h, hrun⟩ := hearlier
  obtain ⟨later, hlater⟩ := hagain
  have hbefore : misheard.bench.session.map (fun s =>
      (s.number, s.canAccept, s.text.status, s.ocr.status, s.llm.status)) =
      some (1, false, .pending, .done, .failed) := by decide +kernel
  have hafter : heardAgain.bench.session.map (fun s => (s.number, s.canAccept)) =
      some (1, true) := by decide +kernel
  obtain ⟨s, hs, hstate⟩ := Option.map_eq_some_iff.1 hbefore
  obtain ⟨s', hs', hstate'⟩ := Option.map_eq_some_iff.1 hafter
  simp only [Prod.mk.injEq] at hstate hstate'
  obtain ⟨hnumber, haccept, htext, hocr, hfailed⟩ := hstate
  have hsame : s'.number = s.number := hstate'.1.trans hnumber.symm
  have honly : ∀ k ∈ s.active, (s.info k).status = .failed → k = .llm := by
    intro k _ hk
    cases k with
    | text => cases htext.symm.trans hk
    | ocr => cases hocr.symm.trans hk
    | llm => rfl
  obtain ⟨hasks, hiff⟩ :=
    (advances_of_chronicle hrun hs).2.2 hfailed honly later heardAgain s' hlater hs' hsame
  exact ⟨h, s, later, s', hrun, hs, hlater, hs', hsame, haccept, hasks, hiff.1 hstate'.2⟩

end Office
end Intake
