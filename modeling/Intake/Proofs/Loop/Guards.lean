import Mathlib.Data.List.Induction
import Intake.Cancellation

/-!
# Guards

Of guarded work and its cancellation exactly one side wins, and what the
guard has given stays given.

What a guard comes to is decided when it is resumed for the first time after
something has come: by then the work has ended, and its outcome counts, or it
has not, and it is asked to end.

There are five groups.

* Histories.  `firstEnd` is the outcome that the work comes to, `Comes` says
  that there is something to go on for, `Idle` that no resumption found it.
* Steps.  What has fired stays fired, what a guard has given stays given.
* Waiting and going on.  `Waiting` is kept while the guard waits;
  `decided_run` says what every history leads to.
* Known times.  `Cancellation.guard_ends`, `guard_fires` and `guard_waits` say
  what the times of the two sides lead to.
* Calls.  No call takes a cancellation back.
-/

namespace Intake

namespace Guard

variable {α : Type} {g : Guard α} {es before after later : List (Event α)}
  {outcome : Except Fault α}

/-! ## Histories -/

/-- The outcome of the work, if it ends with this. -/
def Event.end? : Event α → Option (Except Fault α)
  | ends outcome => some outcome
  | _ => none

/-- The outcome of the work after some events. -/
def firstEnd (es : List (Event α)) : Option (Except Fault α) := es.findSome? Event.end?

/-- The work has ended or the cancellation has fired. -/
def Comes (es : List (Event α)) : Prop := (firstEnd es).isSome ∨ .fires ∈ es

/-- Whenever the guard was resumed, nothing had come. -/
def Idle (es : List (Event α)) : Prop :=
  ∀ before after, es = before ++ .resumes :: after → ¬ Comes before

theorem firstEnd_append (before after : List (Event α)) :
    firstEnd (before ++ after) = (firstEnd before).or (firstEnd after) :=
  List.findSome?_append

theorem firstEnd_concat (es : List (Event α)) (e : Event α) :
    firstEnd (es ++ [e]) = (firstEnd es).or e.end? := by
  rw [firstEnd_append]
  simp [firstEnd]

theorem idle_nil : Idle ([] : List (Event α)) := by
  intro before after h
  simp at h

/-- What has come stays. -/
theorem Comes.append (h : Comes before) (after : List (Event α)) : Comes (before ++ after) := by
  rcases h with hfirst | hfires
  · left
    rw [firstEnd_append, Option.isSome_or, hfirst, Bool.true_or]
  · exact .inr (List.mem_append_left after hfires)

/-- A resumption splits a longer history where it splits the shorter one, or
it is the last event. -/
theorem idle_concat {e : Event α} (hidle : Idle es) (he : e = .resumes → ¬ Comes es) :
    Idle (es ++ [e]) := by
  intro before after h
  rcases List.eq_nil_or_concat after with rfl | ⟨after, last, rfl⟩
  · obtain ⟨rfl, hlast⟩ := List.append_inj' h rfl
    exact he (List.cons.inj hlast).1
  · rw [List.concat_eq_append, ← List.cons_append, ← List.append_assoc] at h
    obtain ⟨rfl, -⟩ := List.append_inj' h rfl
    exact hidle before after rfl

/-! ## Steps -/

theorem run_append (g : Guard α) (es later : List (Event α)) :
    g.run (es ++ later) = (g.run es).run later :=
  List.foldl_append

theorem run_concat (g : Guard α) (es : List (Event α)) (e : Event α) :
    g.run (es ++ [e]) = (g.run es).happen e :=
  run_append g es [e]

/-- Once it has gone on, a guard gives what it has given, and asks the work
nothing more. -/
theorem happen_of_left (h : g.left = some outcome) (e : Event α) :
    (g.happen e).left = some outcome ∧ (g.happen e).asked = g.asked := by
  cases e with
  | steps =>
    simp only [happen]
    split <;> exact ⟨h, rfl⟩
  | ends outcome =>
    simp only [happen]
    split <;> exact ⟨h, rfl⟩
  | fires => exact ⟨h, rfl⟩
  | resumes =>
    simp only [happen, h, Option.isSome_some, if_true]
    exact ⟨trivial, trivial⟩

theorem run_of_left (h : g.left = some outcome) (es : List (Event α)) :
    (g.run es).left = some outcome ∧ (g.run es).asked = g.asked := by
  induction es generalizing g with
  | nil => exact ⟨h, rfl⟩
  | cons e es ih =>
    obtain ⟨hleft, hasked⟩ := happen_of_left h e
    obtain ⟨hleft', hasked'⟩ := ih hleft
    exact ⟨hleft', hasked'.trans hasked⟩

theorem happen_resumes_of_ended (hleft : g.left = none) (hwork : g.work = some outcome) :
    g.happen .resumes = { g with left := some outcome } := by
  simp [happen, hleft, hwork]

theorem happen_resumes_of_goes (hleft : g.left = none) (hwork : g.work = none) :
    g.happen .resumes = if g.fired then g.refuse else g := by
  simp [happen, hleft, hwork]

/-- A guard that was refused before its work took a step. -/
structure Refused (g : Guard α) : Prop where
  left : g.left = some (.error .cancelled)
  begun : g.begun = false
  asked : g.asked = 1
  work : g.work = none

theorem Refused.happen (h : Refused g) (e : Event α) : Refused (g.happen e) := by
  obtain ⟨hleft, hasked⟩ := happen_of_left h.left e
  -- Work that was asked before it began does not go on.
  have hgoes : g.goesOn = false := by simp [goesOn, h.begun, h.asked]
  refine ⟨hleft, ?_, hasked.trans h.asked, ?_⟩
  · cases e with
    | steps => simp [Guard.happen, hgoes, h.begun]
    | ends outcome => simp [Guard.happen, hgoes, h.begun]
    | fires => exact h.begun
    | resumes => simp [Guard.happen, h.left, h.begun]
  · cases e with
    | steps => simp [Guard.happen, hgoes, h.work]
    | ends outcome => simp [Guard.happen, hgoes, h.work]
    | fires => exact h.work
    | resumes => simp [Guard.happen, h.left, h.work]

theorem refused_run (es : List (Event α)) : Refused ((begin true).run es) := by
  have hrun : ∀ g : Guard α, Refused g → Refused (g.run es) := by
    induction es with
    | nil => intro g h; exact h
    | cons e es ih => intro g h; exact ih _ (h.happen e)
  apply hrun
  exact ⟨rfl, rfl, rfl, rfl⟩

/-! ## Waiting and going on -/

/-- A guard that waits after some events. -/
structure Waiting (g : Guard α) (es : List (Event α)) : Prop where
  left : g.left = none
  asked : g.asked = 0
  fired : g.fired = true ↔ .fires ∈ es
  work : g.work = firstEnd es
  begun : g.work.isSome → g.begun = true

/-- A guard that was resumed in time, after `before`: the work has won or the
cancellation has. -/
def Decided (g : Guard α) (before : List (Event α)) : Prop :=
  (∃ outcome, firstEnd before = some outcome ∧ g.left = some outcome ∧ g.asked = 0) ∨
    (firstEnd before = none ∧ .fires ∈ before ∧ g.left = some (.error .cancelled) ∧ g.asked = 1)

theorem waiting_begin : Waiting (begin false : Guard α) [] := by
  refine ⟨rfl, rfl, ?_, rfl, ?_⟩
  · simp [begin]
  · simp [begin]

theorem Waiting.goesOn (h : Waiting g es) : g.goesOn = (firstEnd es).isNone := by
  simp [Guard.goesOn, h.asked, h.work]

theorem Waiting.steps (h : Waiting g es) : Waiting (g.happen .steps) (es ++ [.steps]) := by
  have hfired : g.fired = true ↔ .fires ∈ es ++ [Event.steps] := h.fired.trans (by simp)
  have hwork : g.work = firstEnd (es ++ [.steps]) := by
    rw [firstEnd_concat, h.work]
    exact Option.or_none.symm
  simp only [happen]
  split
  · exact ⟨h.left, h.asked, hfired, hwork, fun _ => rfl⟩
  · exact ⟨h.left, h.asked, hfired, hwork, h.begun⟩

theorem Waiting.ends (h : Waiting g es) (outcome : Except Fault α) :
    Waiting (g.happen (.ends outcome)) (es ++ [.ends outcome]) := by
  have hfired : g.fired = true ↔ .fires ∈ es ++ [Event.ends outcome] := h.fired.trans (by simp)
  have hgoes := h.goesOn
  have hfirst := firstEnd_concat es (.ends outcome)
  -- Only the first end counts.
  cases hbefore : firstEnd es with
  | none =>
    rw [hbefore, Option.isNone_none] at hgoes
    rw [hbefore, Option.none_or] at hfirst
    simp only [happen, hgoes, if_true]
    exact ⟨h.left, h.asked, hfired, hfirst.symm, fun _ => rfl⟩
  | some first =>
    rw [hbefore, Option.isNone_some] at hgoes
    rw [hbefore, Option.some_or] at hfirst
    simp only [happen, hgoes, Bool.false_eq_true, if_false]
    exact ⟨h.left, h.asked, hfired, h.work.trans (hbefore.trans hfirst.symm), h.begun⟩

theorem Waiting.fires (h : Waiting g es) : Waiting (g.happen .fires) (es ++ [.fires]) := by
  refine ⟨h.left, h.asked, ?_, ?_, h.begun⟩
  · simp [happen]
  · simp only [firstEnd_concat, Event.end?, Option.or_none]
    exact h.work

/-- A guard that is resumed goes on if something has come, and waits on if
not. -/
theorem Waiting.resumes (h : Waiting g es) :
    (Comes es → Decided (g.happen .resumes) es) ∧
      (¬ Comes es → Waiting (g.happen .resumes) (es ++ [.resumes])) := by
  have hwork := h.work
  refine ⟨fun hcomes => ?_, fun hcomes => ?_⟩
  · cases hfirst : firstEnd es with
    | some outcome =>
      rw [happen_resumes_of_ended h.left (hwork.trans hfirst)]
      exact .inl ⟨outcome, hfirst, rfl, h.asked⟩
    | none =>
      have hfires : .fires ∈ es := by simpa [Comes, hfirst] using hcomes
      rw [happen_resumes_of_goes h.left (hwork.trans hfirst), if_pos (h.fired.2 hfires)]
      refine .inr ⟨hfirst, hfires, rfl, ?_⟩
      show g.asked + 1 = 1
      rw [h.asked]
  · obtain ⟨hfirst, hfires⟩ : firstEnd es = none ∧ .fires ∉ es := by
      simpa [Comes] using hcomes
    have hfired : ¬ g.fired = true := fun hfired => hfires (h.fired.1 hfired)
    rw [happen_resumes_of_goes h.left (hwork.trans hfirst), if_neg hfired]
    refine ⟨h.left, h.asked, h.fired.trans (by simp), ?_, h.begun⟩
    rw [firstEnd_concat, hwork]
    exact Option.or_none.symm

/-- What has been decided stays so. -/
theorem Decided.run (h : Decided g before) (later : List (Event α)) :
    Decided (g.run later) before := by
  rcases h with ⟨outcome, hfirst, hleft, hasked⟩ | ⟨hfirst, hfires, hleft, hasked⟩
  · obtain ⟨hleft', hasked'⟩ := run_of_left hleft later
    exact .inl ⟨outcome, hfirst, hleft', hasked'.trans hasked⟩
  · obtain ⟨hleft', hasked'⟩ := run_of_left hleft later
    exact .inr ⟨hfirst, hfires, hleft', hasked'.trans hasked⟩

/-- A guard waits as long as no resumption has found anything, and is decided
by the first one that has. -/
theorem decided_run (es : List (Event α)) :
    (Idle es ∧ Waiting ((begin false).run es) es) ∨
      ∃ before after, es = before ++ .resumes :: after ∧ Idle before ∧ Comes before ∧
        Decided ((begin false).run es) before := by
  induction es using List.reverseRecOn with
  | nil => exact .inl ⟨idle_nil, waiting_begin⟩
  | append_singleton es e ih =>
    rw [run_concat]
    rcases ih with ⟨hidle, hwaits⟩ | ⟨before, after, rfl, hidle, hcomes, hdecided⟩
    · cases e with
      | steps => exact .inl ⟨idle_concat hidle nofun, hwaits.steps⟩
      | ends outcome => exact .inl ⟨idle_concat hidle nofun, hwaits.ends outcome⟩
      | fires => exact .inl ⟨idle_concat hidle nofun, hwaits.fires⟩
      | resumes =>
        by_cases hcomes : Comes es
        · exact .inr ⟨es, [], rfl, hidle, hcomes, hwaits.resumes.1 hcomes⟩
        · exact .inl ⟨idle_concat hidle fun _ => hcomes, hwaits.resumes.2 hcomes⟩
    · refine .inr ⟨before, after ++ [e], ?_, hidle, hcomes, hdecided.run [e]⟩
      rw [List.append_assoc, List.cons_append]

/-- Where the work ends before anything else has come, the guard gives its
outcome or nothing yet. -/
theorem left_of_ends_first (hbefore : ¬ Comes before) (outcome : Except Fault α)
    (after : List (Event α)) :
    let g := (begin false).run (before ++ .ends outcome :: after)
    g.asked = 0 ∧ (g.left = none ∨ g.left = some outcome) := by
  intro g
  rcases decided_run (before ++ .ends outcome :: after) with
    ⟨-, hwaits⟩ | ⟨start, rest, hsplit, -, hcomes, hdecided⟩
  · exact ⟨hwaits.asked, .inl hwaits.left⟩
  rcases List.append_eq_append_iff.1 hsplit with ⟨between, rfl, hrest⟩ | ⟨between, rfl, -⟩
  · -- The guard went on after the end, which is the first one.
    obtain ⟨between, rfl⟩ : ∃ tail, between = .ends outcome :: tail := by
      cases between with
      | nil => exact absurd (List.cons.inj hrest).1 nofun
      | cons e tail => exact ⟨tail, by rw [(List.cons.inj hrest).1]⟩
    have hnone : firstEnd before = none := by
      by_contra hsome
      exact hbefore (.inl (Option.isSome_iff_ne_none.2 hsome))
    have hfirst : firstEnd (before ++ .ends outcome :: between) = some outcome := by
      rw [firstEnd_append, hnone, Option.none_or]
      rfl
    rcases hdecided with ⟨own, hown, hleft, hasked⟩ | ⟨hnot, -⟩
    · obtain rfl := Option.some.inj (hown.symm.trans hfirst)
      exact ⟨hasked, .inr hleft⟩
    · exact absurd (hnot.symm.trans hfirst) nofun
  · exact absurd (hcomes.append between) hbefore

end Guard

/-! ## Known times -/

/-- No time is before itself. -/
theorem time_lt_irrefl (t : Float) : ¬ t < t := by
  intro h
  change t.lt t = true at h
  rw [Float.lt, decide_eq_true_iff] at h
  change t.toModel.unpack.lt t.toModel.unpack = true at h
  generalize t.toModel.unpack = u at h
  cases u with
  | notANumber => exact absurd h (by decide)
  | infinity sign => cases sign <;> exact absurd h (by decide)
  | zero sign => exact absurd h Bool.false_ne_true
  | finite sign m e =>
    cases sign with
    | positive =>
      change (some (Ordering.then _ _) == some .lt) = true at h
      simp only [Std.ReflCmp.compare_self] at h
      exact absurd h (by decide)
    | negative =>
      change (some (Ordering.swap (Ordering.then _ _)) == some .lt) = true at h
      simp only [Std.ReflCmp.compare_self] at h
      exact absurd h (by decide)

namespace Cancellation

variable {α : Type} {c : Cancellation} {work : Work α} {t : Float}

/-- A cancellation fires at one of the times at which it is to fire. -/
theorem mem_due_of_firesAt (h : c.firesAt = some t) : t ∈ c.due := by
  have hfold : ∀ (times : List Float) (first : Float),
      times.foldl (fun a b => if b < a then b else a) first ∈ first :: times := by
    intro times
    induction times with
    | nil =>
      intro first
      exact List.mem_cons_self
    | cons time times ih =>
      intro first
      rw [List.foldl_cons]
      split
      · exact List.mem_cons_of_mem first (ih time)
      · rcases List.mem_cons.1 (ih first) with hfirst | htimes
        · rw [hfirst]
          exact List.mem_cons_self
        · exact List.mem_cons_of_mem first (List.mem_cons_of_mem time htimes)
  unfold firesAt at h
  cases hdue : c.due with
  | nil => simp [hdue] at h
  | cons first times =>
    rw [hdue] at h
    obtain rfl := Option.some.inj h
    exact hfold times first

theorem passTo_fired_of_mem (h : t ∈ c.due) : (c.passTo t).fired = true := by
  have hany : (c.due.any fun due => ! decide (t < due)) = true := by
    refine List.any_eq_true.2 ⟨t, h, ?_⟩
    rw [decide_eq_false (time_lt_irrefl t)]
    rfl
  show (c.fired || c.due.any fun due => ! decide (t < due)) = true
  rw [hany, Bool.or_true]

theorem wait_fired (h : c.firesAt = some t) : c.wait.fired = true := by
  unfold wait
  split
  · assumption
  · rw [h, Option.getD_some]
    exact passTo_fired_of_mem (mem_due_of_firesAt h)

theorem guard_of_fired (hfired : c.fired = true) (work : Work α) :
    c.guard work = some (⟨.error .cancelled, []⟩, c) := by
  simp [guard, hfired, guarded_of_fired]

/-- Work that ends no later than the cancellation fires. -/
theorem guard_ends (hfired : c.fired = false) (hends : work.ends = some t)
    (hfirst : ∀ fires, c.firesAt = some fires → ¬ fires < c.now + t) :
    (c.guard work).map Prod.fst = some ⟨work.outcome, [.started]⟩ := by
  have hfirst : endsFirst (some (c.now + t)) c.firesAt = true := by
    unfold endsFirst
    cases hfires : c.firesAt with
    | none => rfl
    | some fires => simp [hfirst fires hfires]
  simp [guard, guarded_eq, hfired, hends, hfirst]

/-- Work that the cancellation is ahead of. -/
theorem guard_fires (hfired : c.fired = false) (hfires : c.firesAt = some t)
    (hlate : ∀ ends, work.ends = some ends → t < c.now + ends) :
    ∃ c', c.guard work = some (⟨.error .cancelled, [.started, .cancelled]⟩, c') ∧
      c'.fired = true := by
  have hlate : endsFirst (work.ends.map (c.now + ·)) (some t) = false := by
    cases hends : work.ends with
    | none => rfl
    | some ends => simp [endsFirst, hlate ends hends]
  refine ⟨c.wait, ?_, wait_fired hfires⟩
  simp [guard, guarded_eq, hfired, hfires, hlate]

/-- Work that does not end and is not cancelled. -/
theorem guard_waits (hfired : c.fired = false) (hends : work.ends = none)
    (hfires : c.firesAt = none) : c.guard work = none := by
  simp [guard, guarded_eq, hfired, hends, hfires, endsFirst]

/-! ## Calls -/

/-- What may be done with a cancellation. -/
inductive Call (α : Type) where
  | fires
  /-- Its state is read, checked or written out. -/
  | reads
  | firesAfter (seconds : Option Float)
  | passes (moment : Float)
  | waits
  | guards (work : Work α)

/-- The cancellation after a call. A guard that never goes on leaves it as it
is. -/
def Call.after (c : Cancellation) : Call α → Cancellation
  | fires => c.fire
  | reads => c
  | firesAfter seconds => c.fireAfter seconds
  | passes moment => c.passTo moment
  | waits => c.wait
  | guards work => ((c.guard work).map Prod.snd).getD c

theorem Call.fired (h : c.fired = true) (call : Call α) : (call.after c).fired = true := by
  cases call with
  | fires => rfl
  | reads => exact h
  | firesAfter seconds => exact h
  | passes moment =>
    show (c.fired || _) = true
    rw [h, Bool.true_or]
  | waits =>
    show c.wait.fired = true
    unfold wait
    rw [if_pos h]
    exact h
  | guards work =>
    show (((c.guard work).map Prod.snd).getD c).fired = true
    rw [guard_of_fired h]
    exact h

theorem calls_fired (h : c.fired = true) (calls : List (Call α)) :
    (calls.foldl Call.after c).fired = true := by
  induction calls generalizing c with
  | nil => exact h
  | cons call calls ih => exact ih (call.fired h)

open Guard in
/-- One side wins. Under a cancellation that has fired the work takes no step.
Else the first resumption that finds something decides, for the work if that
has ended by then; and nothing else is given later. Work of known times wins
if it ends no later than the cancellation fires. No call takes a cancellation
back. -/
theorem one_side_wins (es later : List (Guard.Event α)) (c : Cancellation) (work : Work α)
    (calls : List (Call α)) :
    (Refused ((begin true).run es) ∧ ((begin true).run es).events = []) ∧
      (Idle es ∧ Waiting ((begin false).run es) es ∨
        ∃ before after, es = before ++ .resumes :: after ∧ Idle before ∧ Comes before ∧
          Decided ((begin false).run es) before) ∧
      (∀ before outcome after, es = before ++ .ends outcome :: after → ¬ Comes before →
        let g := (begin false).run es
        g.asked = 0 ∧ (g.left = none ∨ g.left = some outcome)) ∧
      (∀ fired outcome, ((begin fired).run es).left = some outcome →
        ((begin fired).run (es ++ later)).left = some outcome) ∧
      (c.fired = true → c.guard work = some (⟨.error .cancelled, []⟩, c)) ∧
      (c.fired = false →
        (∀ ends, work.ends = some ends →
          (∀ fires, c.firesAt = some fires → ¬ fires < c.now + ends) →
          (c.guard work).map Prod.fst = some ⟨work.outcome, [.started]⟩) ∧
        (∀ fires, c.firesAt = some fires →
          (∀ ends, work.ends = some ends → fires < c.now + ends) →
          ∃ c', c.guard work = some (⟨.error .cancelled, [.started, .cancelled]⟩, c') ∧
            c'.fired = true) ∧
        (work.ends = none → c.firesAt = none → c.guard work = none)) ∧
      (c.fired = true → (calls.foldl Call.after c).fired = true ∧
        (calls.foldl Call.after c).check = .error .cancelled) := by
  refine ⟨⟨refused_run es, ?_⟩, decided_run es, ?_, ?_, ?_, ?_, ?_⟩
  · simp [events, (refused_run es).begun]
  · rintro before outcome after rfl hbefore
    exact left_of_ends_first hbefore outcome after
  · intro fired outcome hleft
    rw [run_append]
    exact (run_of_left hleft later).1
  · intro hfired
    exact guard_of_fired hfired work
  · intro hfired
    refine ⟨?_, ?_, ?_⟩
    · intro ends hends hfirst
      exact guard_ends hfired hends hfirst
    · intro fires hfires hlate
      exact guard_fires hfired hfires hlate
    · intro hends hfires
      exact guard_waits hfired hends hfires
  · intro hfired
    have hlast := calls_fired hfired calls
    refine ⟨hlast, ?_⟩
    unfold check
    rw [if_pos hlast]

/-- Both sides come before the guard is resumed. -/
example : ((Guard.begin false).run [.steps, .ends (.ok 3), .fires, .resumes]).given =
    some (⟨.ok 3, [.started]⟩ : Guarded Nat) := by rfl

/-- The work ends after the guard has asked it to. -/
example : ((Guard.begin false).run [.steps, .fires, .resumes, .ends (.ok 3), .resumes]).given =
    some (⟨.error .cancelled, [.started, .cancelled]⟩ : Guarded Nat) := by rfl

end Cancellation
end Intake
