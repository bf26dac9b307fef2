import Intake.Session.Steps

/-!
# Where a session stands

A session works on one step at a time, and the step it works on decides
what every field of the session may hold.

There are three groups.

* Standings.  `StepStatus.Fits` is the status of a step that lies behind,
  at or ahead of the work; `Session.Standing` fits every field of a session
  to the places of its steps, and `Session.Stands` names the three
  standings between two turns.
* Changes.  Each change of a session takes one standing to another.
* Coherence.  `Session.Coherent` is what a session shows to the outside;
  `coherent_of_stands` says that every standing is coherent.
-/

namespace Intake

/-! ## Standings -/

/-- The step is over. -/
def StepStatus.IsEnded (t : StepStatus) : Prop := t = .done ∨ t = .failed

/-- The status of a step behind the work, at the work, or ahead of it.  A
step that does not apply is passed over. -/
def StepStatus.Fits (applies : Bool) : Ordering → StepStatus → Prop
  | .lt, t => if applies then t.IsEnded else t = .pending
  | .eq, t => applies = true ∧ t = .running
  | .gt, t => t = .pending

namespace Session

/-- The fields of a session whose pages' step and model's step have the
given places. -/
structure Standing (s : Session) (ocr llm : Ordering) (done : Bool) : Prop where
  text : s.text.status = if s.hasText then .done else .pending
  ocr : s.ocr.status.Fits s.hasOcr ocr
  llm : s.llm.status.Fits s.hasLlm llm
  done : s.done = done
  hasError : s.hasError = true ↔ s.ocr.status = .failed ∨ s.llm.status = .failed
  hints : s.hints.isSome = true ↔ s.llm.status = .done
  pages : s.ocr.status ≠ .done → s.pages.text = "" ∧ s.pages.table = ""
  cursor : 0 ≤ s.cursor ∧ s.cursor < s.active.length

/-- A session that reads pages, one that asks a model, and one that is
done. -/
def Stands (s : Session) : Option LayerKind → Prop
  | some .ocr => s.Standing .eq .gt false
  | some .llm => s.Standing .lt .eq false
  | some .text => False
  | none => s.Standing .lt .lt true

/-! ## Changes -/

section Changes

variable {s : Session} {ocr llm : Ordering} {done : Bool}

theorem length_active_pos (h : s.Standing ocr llm done) : 0 < s.active.length := by
  have hcursor := h.cursor
  omega

theorem standing_moveBy (h : s.Standing ocr llm done) (by_ : Int) :
    (s.moveBy by_).Standing ocr llm done := by
  have hlength := length_active_pos h
  refine ⟨h.text, h.ocr, h.llm, h.done, h.hasError, h.hints, h.pages, ?_⟩
  show 0 ≤ max 0 (min ((s.active.length : Int) - 1) (s.cursor + by_)) ∧
    max 0 (min ((s.active.length : Int) - 1) (s.cursor + by_)) < s.active.length
  omega

theorem standing_toggle (h : s.Standing ocr llm done) : s.toggle.Standing ocr llm done :=
  ⟨h.text, h.ocr, h.llm, h.done, h.hasError, h.hints, h.pages, h.cursor⟩

theorem eq_none_of_done {k? : Option LayerKind} (h : s.Stands k?) (hdone : s.done = true) :
    k? = none := by
  match k?, h with
  | none, _ => rfl
  | some .ocr, h => exact Bool.noConfusion (hdone.symm.trans h.done)
  | some .llm, h => exact Bool.noConfusion (hdone.symm.trans h.done)

/-- What keeps every standing keeps a session where it stands. -/
theorem Stands.of_standing {k? : Option LayerKind} {s' : Session} (h : s.Stands k?)
    (hkeeps : ∀ ocr llm done, s.Standing ocr llm done → s'.Standing ocr llm done) :
    s'.Stands k? := by
  match k?, h with
  | none, h => exact hkeeps _ _ _ h
  | some .ocr, h => exact hkeeps _ _ _ h
  | some .llm, h => exact hkeeps _ _ _ h

theorem standing_of_stands {k? : Option LayerKind} (h : s.Stands k?) :
    ∃ ocr llm done, s.Standing ocr llm done := by
  match k?, h with
  | none, h => exact ⟨.lt, .lt, true, h⟩
  | some .ocr, h => exact ⟨.eq, .gt, false, h⟩
  | some .llm, h => exact ⟨.lt, .eq, false, h⟩

theorem stands_moveBy {k? : Option LayerKind} (h : s.Stands k?) (by_ : Int) :
    (s.moveBy by_).Stands k? :=
  h.of_standing fun _ _ _ hs => standing_moveBy hs by_

theorem stands_toggle {k? : Option LayerKind} (h : s.Stands k?) : s.toggle.Stands k? :=
  h.of_standing fun _ _ _ hs => standing_toggle hs

theorem standing_setProgress (h : s.Standing ocr llm done) (stream : Option Nat) :
    ({ s with progress := stream } : Session).Standing ocr llm done :=
  ⟨h.text, h.ocr, h.llm, h.done, h.hasError, h.hints, h.pages, h.cursor⟩

theorem stands_setProgress {k? : Option LayerKind} (h : s.Stands k?) (stream : Option Nat) :
    ({ s with progress := stream } : Session).Stands k? :=
  h.of_standing fun _ _ _ hs => standing_setProgress hs stream

theorem standing_setReply (h : s.Standing ocr llm done) (stream : Option Nat) :
    ({ s with reply := stream } : Session).Standing ocr llm done :=
  ⟨h.text, h.ocr, h.llm, h.done, h.hasError, h.hints, h.pages, h.cursor⟩

theorem standing_pagesMoved (h : s.Standing ocr llm done) (p : Progress) :
    (s.pagesMoved p).Standing ocr llm done :=
  ⟨h.text, h.ocr, h.llm, h.done, h.hasError, h.hints, h.pages, h.cursor⟩

theorem standing_replyGrown (h : s.Standing ocr llm done) (piece : String) :
    (s.replyGrown piece).Standing ocr llm done := by
  rw [replyGrown]
  split
  · exact h
  · exact ⟨h.text, h.ocr, h.llm, h.done, h.hasError, h.hints, h.pages, h.cursor⟩

theorem standing_replyEnded (h : s.Standing ocr llm done) (now : Float) :
    (s.replyEnded now).Standing ocr llm done :=
  ⟨h.text, h.ocr, h.llm, h.done, h.hasError, h.hints, h.pages, h.cursor⟩

theorem standing_pagesFailed (h : s.Standing .eq .gt false) (now : Float) (e : Fault) :
    (s.pagesFailed now e).Standing .lt .gt false := by
  have hocr : s.ocr.status = .running := h.ocr.2
  refine ⟨h.text, ?_, h.llm, h.done, ⟨fun _ => Or.inl rfl, fun _ => rfl⟩, h.hints, ?_, h.cursor⟩
  · show if s.hasOcr = true then StepStatus.failed.IsEnded else _
    rw [if_pos h.ocr.1]
    exact Or.inr rfl
  · intro _
    apply h.pages
    rw [hocr]
    exact StepStatus.noConfusion

theorem standing_pagesRead (h : s.Standing .eq .gt false) (now : Float) (p : Page) :
    (s.pagesRead now p).Standing .lt .gt false := by
  have hocr : s.ocr.status = .running := h.ocr.2
  have hllm : s.llm.status = .pending := h.llm
  have herror := h.hasError
  rw [hocr, hllm] at herror
  refine ⟨h.text, ?_, h.llm, h.done, ?_, h.hints, fun hne => absurd rfl hne, h.cursor⟩
  · show if s.hasOcr = true then StepStatus.done.IsEnded else _
    rw [if_pos h.ocr.1]
    exact Or.inl rfl
  · show s.hasError = true ↔ StepStatus.done = .failed ∨ s.llm.status = .failed
    rw [hllm, herror]
    simp

/-- The model's step starts where it waits. -/
theorem standing_modelStarted (h : s.Standing .lt .gt false) (hs : s.hasLlm = true) (now : Float)
    (model : String) : (s.modelStarted now model).Standing .lt .eq false := by
  have hllm : s.llm.status = .pending := h.llm
  have herror := h.hasError
  have hhints := h.hints
  rw [hllm] at herror hhints
  refine ⟨h.text, h.ocr, ⟨hs, rfl⟩, h.done, ?_, ?_, h.pages, h.cursor⟩
  · show s.hasError = true ↔ s.ocr.status = .failed ∨ StepStatus.running = .failed
    rw [herror]
    simp
  · show s.hints.isSome = true ↔ StepStatus.running = .done
    rw [hhints]
    simp

/-- Without a model the session is done where the model's step would
start. -/
theorem standing_finish (h : s.Standing .lt .gt false) (hs : s.hasLlm = false) :
    ({ s with done := true } : Session).Standing .lt .lt true := by
  refine ⟨h.text, h.ocr, ?_, rfl, h.hasError, h.hints, h.pages, h.cursor⟩
  show if s.hasLlm = true then _ else s.llm.status = .pending
  rw [if_neg (by simp [hs])]
  exact h.llm

theorem standing_replyRead (h : s.Standing .lt .eq false) (hints : Hints) :
    (s.replyRead hints).Standing .lt .lt true := by
  have hllm : s.llm.status = .running := h.llm.2
  have herror := h.hasError
  rw [hllm] at herror
  refine ⟨h.text, h.ocr, ?_, rfl, ?_, ⟨fun _ => rfl, fun _ => rfl⟩, h.pages, h.cursor⟩
  · show if s.hasLlm = true then StepStatus.done.IsEnded else _
    rw [if_pos h.llm.1]
    exact Or.inl rfl
  · show s.hasError = true ↔ s.ocr.status = .failed ∨ StepStatus.done = .failed
    rw [herror]
    simp

/-- The model's step fails. -/
theorem standing_llmFailed (h : s.Standing .lt .eq false) (i : StepInfo) (line : String) :
    ({ s with llm := i.fail line, hasError := true, done := true } : Session).Standing
      .lt .lt true := by
  have hllm : s.llm.status = .running := h.llm.2
  have hhints := h.hints
  rw [hllm] at hhints
  refine ⟨h.text, h.ocr, ?_, rfl, ⟨fun _ => Or.inr rfl, fun _ => rfl⟩, ?_, h.pages, h.cursor⟩
  · show if s.hasLlm = true then StepStatus.failed.IsEnded else _
    rw [if_pos h.llm.1]
    exact Or.inr rfl
  · show s.hints.isSome = true ↔ StepStatus.failed = .done
    rw [hhints]
    simp

theorem standing_replyRefused (h : s.Standing .lt .eq false) (m : Reply.Malformed) :
    (s.replyRefused m).Standing .lt .lt true := standing_llmFailed h s.llm _

theorem standing_replyFailed (h : s.Standing .lt .eq false) (now : Float) (e : Fault) :
    (s.replyFailed now e).Standing .lt .lt true := standing_llmFailed h (s.llm.timed now) _

/-- A step that was passed over has not failed. -/
theorem applies_of_failed {t : StepStatus} {applies : Bool} {place : Ordering}
    (h : t.Fits applies place) (ht : t = .failed) : applies = true := by
  subst ht
  cases place with
  | lt =>
    cases applies with
    | true => rfl
    | false => exact StepStatus.noConfusion (show StepStatus.failed = .pending from h)
  | eq => exact h.1
  | gt => exact StepStatus.noConfusion (show StepStatus.failed = .pending from h)

theorem text_ne_failed (h : s.Standing ocr llm done) : s.text.status ≠ .failed := by
  rw [h.text]
  split
  · exact StepStatus.noConfusion
  · exact StepStatus.noConfusion

/-- Of the failures before a rerun, that of the pages' step is left. -/
theorem hasError_modelReset (h : s.Standing ocr llm done) :
    s.modelReset.hasError = true ↔ s.ocr.status = .failed := by
  show (s.active.any fun k => k != .llm && decide ((s.info k).status = .failed)) = true ↔ _
  simp only [List.any_eq_true, mem_active_iff, Bool.and_eq_true, bne_iff_ne, ne_eq,
    decide_eq_true_eq]
  constructor
  · rintro ⟨k, -, hk, hfailed⟩
    cases k with
    | text => exact absurd hfailed (text_ne_failed h)
    | ocr => exact hfailed
    | llm => exact absurd rfl hk
  · intro hfailed
    exact ⟨.ocr, applies_of_failed h.ocr hfailed, LayerKind.noConfusion, hfailed⟩

/-- A session that is done goes back to where its model's step waits. -/
theorem standing_modelReset (h : s.Standing .lt .lt true) :
    s.modelReset.Standing .lt .gt false := by
  refine ⟨h.text, h.ocr, rfl, rfl, ?_, ?_, h.pages, h.cursor⟩
  · rw [hasError_modelReset h]
    exact (or_iff_left StepStatus.noConfusion).symm
  · show Option.isSome (none : Option Hints) = true ↔ StepStatus.pending = .done
    simp

end Changes

/-! ## Coherence -/

/-- What a session shows to the outside. -/
structure Coherent (s : Session) : Prop where
  /-- No two steps run at once. -/
  running_le : s.active.countP (fun k => (s.info k).status = .running) ≤ 1
  running_iff : s.active.countP (fun k => (s.info k).status = .running) = 1 ↔ s.done = false
  done_iff : s.done = true ↔ ∀ k ∈ s.active, (s.info k).status.IsEnded
  hasError_iff : s.hasError = true ↔ ∃ k ∈ s.active, (s.info k).status = .failed
  hints_iff : s.hints.isSome = true ↔ s.llm.status = .done
  pages_done : s.pages.text ≠ "" ∨ s.pages.table ≠ "" → s.ocr.status = .done
  cursor_active : 0 ≤ s.cursor ∧ s.cursor < s.active.length

theorem countP_active (s : Session) (p : LayerKind → Bool) :
    s.active.countP p =
      (s.hasText && p .text).toNat + (s.hasOcr && p .ocr).toNat + (s.hasLlm && p .llm).toNat := by
  rw [active, List.countP_filter, LayerKind.all]
  simp only [List.countP_cons, List.countP_nil, applies]
  cases s.hasText <;> cases s.hasOcr <;> cases s.hasLlm <;>
    cases p .text <;> cases p .ocr <;> cases p .llm <;> rfl

/-- Only the step at the work runs. -/
theorem isRunning_of_fits {t : StepStatus} {applies : Bool} {place : Ordering}
    (h : t.Fits applies place) : (applies && decide (t = .running)) = (place == .eq) := by
  cases place with
  | lt =>
    cases applies with
    | true =>
      have hended : t = .done ∨ t = .failed := h
      rcases hended with rfl | rfl
      · rfl
      · rfl
    | false => rfl
  | eq =>
    obtain ⟨rfl, rfl⟩ := h
    rfl
  | gt =>
    have hpending : t = .pending := h
    subst hpending
    cases applies <;> rfl

theorem countP_running {s : Session} {ocr llm : Ordering} {done : Bool}
    (h : s.Standing ocr llm done) :
    s.active.countP (fun k => (s.info k).status = .running) =
      (ocr == .eq).toNat + (llm == .eq).toNat := by
  have htext : (s.hasText && decide (s.text.status = .running)) = false := by
    rw [h.text]
    cases s.hasText <;> rfl
  rw [countP_active]
  show (s.hasText && decide (s.text.status = .running)).toNat
    + (s.hasOcr && decide (s.ocr.status = .running)).toNat
    + (s.hasLlm && decide (s.llm.status = .running)).toNat = _
  rw [htext, isRunning_of_fits h.ocr, isRunning_of_fits h.llm]
  show 0 + _ + _ = _
  omega

/-- A session that is done has no step that is not over. -/
theorem isEnded_of_done {s : Session} (h : s.Standing .lt .lt true) {k : LayerKind}
    (hk : k ∈ s.active) : (s.info k).status.IsEnded := by
  rw [mem_active_iff] at hk
  cases k with
  | text =>
    have htext : s.hasText = true := hk
    have hstatus := h.text
    rw [if_pos htext] at hstatus
    exact Or.inl hstatus
  | ocr =>
    have hfits := h.ocr
    rw [show s.hasOcr = true from hk] at hfits
    exact hfits
  | llm =>
    have hfits := h.llm
    rw [show s.hasLlm = true from hk] at hfits
    exact hfits

/-- A step that is over does not run. -/
theorem not_isEnded_running : ¬ StepStatus.running.IsEnded := by
  rintro (h | h)
  · exact StepStatus.noConfusion h
  · exact StepStatus.noConfusion h

theorem hasError_iff_of_standing {s : Session} {ocr llm : Ordering} {done : Bool}
    (h : s.Standing ocr llm done) :
    s.hasError = true ↔ ∃ k ∈ s.active, (s.info k).status = .failed := by
  rw [h.hasError]
  constructor
  · rintro (hfailed | hfailed)
    · exact ⟨.ocr, (mem_active_iff s .ocr).2 (applies_of_failed h.ocr hfailed), hfailed⟩
    · exact ⟨.llm, (mem_active_iff s .llm).2 (applies_of_failed h.llm hfailed), hfailed⟩
  · rintro ⟨k, -, hfailed⟩
    cases k with
    | text => exact absurd hfailed (text_ne_failed h)
    | ocr => exact Or.inl hfailed
    | llm => exact Or.inr hfailed

/-- A standing whose count of running steps agrees with whether every step
is over is coherent. -/
theorem coherent_of_standing {s : Session} {ocr llm : Ordering} {done : Bool}
    (h : s.Standing ocr llm done)
    (hcount : (ocr == .eq).toNat + (llm == .eq).toNat = (! done).toNat)
    (hdone : done = true ↔ ∀ k ∈ s.active, (s.info k).status.IsEnded) : s.Coherent := by
  constructor
  · rw [countP_running h, hcount]
    cases done <;> decide
  · rw [countP_running h, hcount, h.done]
    cases done <;> decide
  · rw [h.done]
    exact hdone
  · exact hasError_iff_of_standing h
  · exact h.hints
  · intro hpages
    apply Decidable.byContradiction
    intro hne
    obtain ⟨htext, htable⟩ := h.pages hne
    rw [htext, htable] at hpages
    simp at hpages
  · exact h.cursor

theorem coherent_of_stands {s : Session} {k? : Option LayerKind} (h : s.Stands k?) :
    s.Coherent := by
  match k?, h with
  | none, h =>
    refine coherent_of_standing h rfl ⟨fun _ k hk => isEnded_of_done h hk, fun _ => rfl⟩
  | some .ocr, h =>
    refine coherent_of_standing h rfl ⟨fun hd => Bool.noConfusion hd, fun hall => ?_⟩
    have hended := hall .ocr ((mem_active_iff s .ocr).2 h.ocr.1)
    rw [show (s.info .ocr).status = .running from h.ocr.2] at hended
    exact absurd hended not_isEnded_running
  | some .llm, h =>
    refine coherent_of_standing h rfl ⟨fun hd => Bool.noConfusion hd, fun hall => ?_⟩
    have hended := hall .llm ((mem_active_iff s .llm).2 h.llm.1)
    rw [show (s.info .llm).status = .running from h.llm.2] at hended
    exact absurd hended not_isEnded_running

/-- The results of a coherent session may be saved exactly when every step
has done its work. -/
theorem Coherent.canAccept_iff {s : Session} (h : s.Coherent) :
    s.canAccept = true ↔ ∀ k ∈ s.active, (s.info k).status = .done := by
  rw [canAccept, Bool.and_eq_true, Bool.and_eq_true, Bool.not_eq_true', Bool.not_eq_true']
  constructor
  · rintro ⟨⟨hdone, -⟩, hfailed⟩ k hk
    rcases h.done_iff.1 hdone k hk with hstatus | hstatus
    · exact hstatus
    · have hany : s.anyFailed = true :=
        List.any_eq_true.2 ⟨k, hk, decide_eq_true hstatus⟩
      rw [hany] at hfailed
      exact Bool.noConfusion hfailed
  · intro hall
    have hnone : ¬ ∃ k ∈ s.active, (s.info k).status = .failed := by
      rintro ⟨k, hk, hfailed⟩
      rw [hall k hk] at hfailed
      exact StepStatus.noConfusion hfailed
    refine ⟨⟨h.done_iff.2 fun k hk => Or.inl (hall k hk), ?_⟩, ?_⟩
    · exact Bool.eq_false_iff.2 fun he => hnone (h.hasError_iff.1 he)
    · refine Bool.eq_false_iff.2 fun hany => ?_
      obtain ⟨k, hk, hfailed⟩ := List.any_eq_true.1 hany
      exact hnone ⟨k, hk, of_decide_eq_true hfailed⟩

end Session
end Intake
