import Intake.Proofs.Program.Steady

/-!
# First come

A program that is run ends by itself, or it is stopped by its time limit or by
the cancellation.  What comes first decides what the run comes to and whether
the program is stopped.

There are three groups.

* Waits.  `Wait.Sound` is what holds of a wait after every instant, whatever
  happens; `sound_run` proves it.  `isSome_left_run` says that the caller goes
  on once the program has ended, and `stops_eq_zero_iff` which programs are
  spared.
* Programs of known times.  `Script.EndsFirst`, `Script.FiresInTime` and
  `Script.Wakes` compare the times.  `outcome_eq_ended_iff` and
  `outcome_eq_cancelled_iff` say what a wait for the program comes to.
* Runs.  `run_of_endsFirst` and `run_of_not_endsFirst` say what a run comes to,
  and `run_decided` is the result.
-/

namespace Intake

/-! ## Waits -/

namespace Wait

variable {w : Wait} {instant : List Event} {instants : List (List Event)}

/-- What a caller comes to when it finds that the program has ended. -/
def verdict (w : Wait) : Outcome :=
  if w.stops = 0 then .ended else if w.fired then .cancelled else .timedOut

/-- A wait after an instant. -/
structure Sound (w : Wait) : Prop where
  /-- The caller goes on only when the program has ended. -/
  left : ∀ o, w.left = some o → w.running = false ∧ o = w.verdict
  running : w.left = none → w.running = true
  stops_le : w.stops ≤ 1
  /-- The program is stopped for a reason. -/
  alarmed : 0 < w.stops → w.fired = true ∨ w.expired = true

theorem sound_start : Sound {} :=
  ⟨fun _ h => (Option.some_ne_none _ h.symm).elim, fun _ => rfl, Nat.zero_le 1,
    fun h => absurd h (Nat.lt_irrefl 0)⟩

/-- What happens at an instant, all at once. -/
theorem foldl_happen (w : Wait) (instant : List Event) :
    instant.foldl happen w =
      { w with
        running := w.running && ! instant.contains .ends
        fired := w.fired || instant.contains .fires
        expired := w.expired || instant.contains .expires } := by
  induction instant generalizing w with
  | nil => simp
  | cons e rest ih =>
    rw [List.foldl_cons, ih]
    cases e <;> simp [happen]

theorem sound_act (hleft : w.left = none) (hstops : w.stops ≤ 1)
    (halarmed : 0 < w.stops → w.fired = true ∨ w.expired = true) : w.act.Sound := by
  rw [act]
  split
  · rename_i hzero
    split
    · rename_i hrunning
      refine ⟨?_, nofun, hstops, halarmed⟩
      rintro o ⟨⟩
      exact ⟨by simpa using hrunning, by rw [verdict, if_pos hzero]⟩
    · rename_i hrunning
      have hgoes : w.running = true := by simpa using hrunning
      split
      · rename_i halarm
        refine ⟨fun o ho => ?_, fun _ => hgoes, ?_, fun _ => by simpa using halarm⟩
        · exact (Option.some_ne_none o (ho.symm.trans hleft)).elim
        · exact Nat.le_of_eq (congrArg (· + 1) hzero)
      · exact ⟨fun o ho => (Option.some_ne_none o (ho.symm.trans hleft)).elim, fun _ => hgoes,
          hstops, halarmed⟩
  · rename_i hsome
    split
    · rename_i hrunning
      refine ⟨?_, nofun, hstops, halarmed⟩
      rintro o ⟨⟩
      exact ⟨by simpa using hrunning, by rw [verdict, if_neg hsome]⟩
    · rename_i hrunning
      exact ⟨fun o ho => (Option.some_ne_none o (ho.symm.trans hleft)).elim,
        fun _ => by simpa using hrunning, hstops, halarmed⟩

/-- An instant passes. -/
theorem sound_pass (h : w.Sound) (instant : List Event) : (w.pass instant).Sound := by
  rw [pass]
  split
  · exact h
  · rename_i hleft
    rw [foldl_happen]
    refine sound_act (by simpa using hleft) h.stops_le fun hstops => ?_
    rcases h.alarmed hstops with hfired | hexpired
    · exact .inl (by simp [hfired])
    · exact .inr (by simp [hexpired])

theorem sound_run (h : w.Sound) (instants : List (List Event)) : (w.run instants).Sound := by
  induction instants generalizing w with
  | nil => exact h
  | cons instant rest ih => exact ih (sound_pass h instant)

/-- A caller that has gone on is not there any more. -/
theorem run_of_left (h : w.left.isSome = true) (instants : List (List Event)) :
    w.run instants = w := by
  induction instants with
  | nil => rfl
  | cons instant rest ih =>
    have hpass : w.pass instant = w := by rw [pass, if_pos h]
    rw [run, List.foldl_cons, hpass]
    exact ih

/-- A caller goes on at the instant at which the program ends. -/
theorem isSome_left_pass (w : Wait) (h : Event.ends ∈ instant) :
    (w.pass instant).left.isSome = true := by
  rw [pass]
  split
  · assumption
  · have hgone : (instant.foldl happen w).running = false := by
      rw [foldl_happen]
      simp [h]
    rw [act]
    split <;> simp [hgone]

theorem isSome_left_run (w : Wait) (h : ∃ instant ∈ instants, Event.ends ∈ instant) :
    (w.run instants).left.isSome = true := by
  obtain ⟨instant, hmem, hends⟩ := h
  obtain ⟨before, after, rfl⟩ := List.append_of_mem hmem
  have hleft := isSome_left_pass (w.run before) hends
  rw [run, List.foldl_append, List.foldl_cons]
  rw [← run_of_left hleft after] at hleft
  exact hleft

/-- A caller that has gone on has tried once to stop the program, unless it
had ended by itself. -/
theorem Sound.stops_eq (h : w.Sound) (hleft : w.left.isSome = true) :
    w.running = false ∧ w.stops = if w.outcome = .ended then 0 else 1 := by
  obtain ⟨o, ho⟩ := Option.isSome_iff_exists.1 hleft
  obtain ⟨hrunning, hverdict⟩ := h.left o ho
  have houtcome : w.outcome = w.verdict := by rw [outcome, ho, hverdict, Option.getD_some]
  refine ⟨hrunning, ?_⟩
  rw [houtcome, verdict]
  by_cases hstops : w.stops = 0
  · rw [if_pos hstops, if_pos rfl, hstops]
  · have hone : w.stops = 1 := Nat.le_antisymm h.stops_le (Nat.pos_of_ne_zero hstops)
    rw [if_neg hstops, hone, if_neg]
    split <;> exact nofun

theorem stops_le_act (w : Wait) : w.stops ≤ w.act.stops := by
  rw [act]
  split
  · rename_i hzero
    rw [hzero]
    exact Nat.zero_le _
  · split <;> exact Nat.le_refl _

theorem stops_le_run (w : Wait) (instants : List (List Event)) :
    w.stops ≤ (w.run instants).stops := by
  induction instants generalizing w with
  | nil => exact Nat.le_refl _
  | cons instant rest ih =>
    have hpass : w.stops ≤ (w.pass instant).stops := by
      rw [pass]
      split
      · exact Nat.le_refl _
      · have hact := stops_le_act (instant.foldl happen w)
        rw [foldl_happen] at hact ⊢
        exact hact
    exact Nat.le_trans hpass (ih (w.pass instant))

theorem stops_pass_of_ends (h : Event.ends ∈ instant) : (pass {} instant).stops = 0 := by
  have hgone : (instant.foldl happen {}).running = false := by
    rw [foldl_happen]
    simp [h]
  have hstops : (instant.foldl happen {}).stops = 0 := by rw [foldl_happen]
  rw [pass, if_neg (by simp), act, if_pos hstops, hgone, Bool.not_false, if_pos rfl]
  exact hstops

theorem stops_pass_of_alarm {e : Event} {es : List Event} (h : Event.ends ∉ e :: es) :
    (pass {} (e :: es)).stops = 1 := by
  have hgoes : ((e :: es).foldl happen {}).running = true := by
    rw [foldl_happen]
    simpa using h
  have halarm : (((e :: es).foldl happen {}).fired || ((e :: es).foldl happen {}).expired) =
      true := by
    rw [foldl_happen]
    cases e with
    | ends => exact absurd List.mem_cons_self h
    | fires => simp
    | expires => simp
  have hstops : ((e :: es).foldl happen {}).stops = 0 := by rw [foldl_happen]
  rw [pass, if_neg (by simp), act, if_pos hstops, hgoes, if_neg (by simp), if_pos halarm, hstops]

/-- A program is spared exactly if its end is among the first things that
happen. -/
theorem stops_eq_zero_iff (h : (run {} instants).left.isSome = true) :
    (run {} instants).stops = 0 ↔
      ∃ quiet instant later, instants = quiet ++ instant :: later ∧
        (∀ i ∈ quiet, i = []) ∧ Event.ends ∈ instant := by
  induction instants with
  | nil => cases h
  | cons instant rest ih =>
    cases instant with
    | nil =>
      -- nothing happens, and the wait is what it was
      refine (ih h).trans ⟨?_, ?_⟩
      · rintro ⟨quiet, instant, later, rfl, hquiet, hends⟩
        exact ⟨[] :: quiet, instant, later, rfl, by simpa using hquiet, hends⟩
      · rintro ⟨quiet, instant, later, heq, hquiet, hends⟩
        cases quiet with
        | nil =>
          obtain ⟨rfl, -⟩ := List.cons.inj heq
          exact absurd hends List.not_mem_nil
        | cons first quiet =>
          obtain ⟨-, rfl⟩ := List.cons.inj heq
          exact ⟨quiet, instant, later, rfl,
            fun i hi => hquiet i (List.mem_cons_of_mem _ hi), hends⟩
    | cons e es =>
      by_cases hends : Event.ends ∈ e :: es
      · refine iff_of_true ?_ ⟨[], e :: es, rest, rfl, nofun, hends⟩
        refine (congrArg stops (run_of_left (isSome_left_pass {} hends) rest)).trans ?_
        exact stops_pass_of_ends hends
      · refine iff_of_false (fun hstops => ?_) ?_
        · have hle := stops_le_run (pass {} (e :: es)) rest
          rw [stops_pass_of_alarm hends] at hle
          exact absurd (Nat.le_trans hle (Nat.le_of_eq hstops)) (Nat.not_succ_le_zero 0)
        · rintro ⟨quiet, instant, later, heq, hquiet, hends'⟩
          cases quiet with
          | nil =>
            obtain ⟨rfl, -⟩ := List.cons.inj heq
            exact hends hends'
          | cons first quiet =>
            obtain ⟨rfl, -⟩ := List.cons.inj heq
            exact List.cons_ne_nil _ _ (hquiet _ List.mem_cons_self)

end Wait

/-! ## Programs of known times -/

theorem not_lt_self (x : Float) : ¬ x < x := by
  intro h
  have hlt : x.toModel.unpack.lt x.toModel.unpack = true := of_decide_eq_true h
  cases hx : x.toModel.unpack with
  | notANumber =>
    rw [hx] at hlt
    cases hlt
  | infinity s =>
    rw [hx] at hlt
    cases s <;> cases hlt
  | zero s =>
    rw [hx] at hlt
    cases s <;> cases hlt
  | finite s m e hm =>
    have hsame : (compare e e).then (compare m m) = .eq := by
      rw [Std.ReflOrd.compare_self, Std.ReflOrd.compare_self]
      rfl
    rw [hx] at hlt
    cases s with
    | positive =>
      change (some ((compare e e).then (compare m m)) == some .lt) = true at hlt
      rw [hsame] at hlt
      cases hlt
    | negative =>
      change (some ((compare e e).then (compare m m)).swap == some .lt) = true at hlt
      rw [hsame] at hlt
      cases hlt

theorem stopCause_eq_cancelled_iff {limit fires : Option Float} :
    stopCause limit fires = .cancelled ↔ ∃ f ∈ fires, ∀ l ∈ limit, f < l := by
  cases fires with
  | none => cases limit <;> simp [stopCause]
  | some f =>
    cases limit with
    | none => simp [stopCause]
    | some l => by_cases hfirst : f < l <;> simp [stopCause, hfirst]

namespace Script

variable {script : Script} {limit : Option Float} {heeded : Bool}

/-- When the cancellation fires, for a caller that waits for it. -/
def alarm (script : Script) (heeded : Bool) : Option Float :=
  if heeded then script.fireTime else none

/-- The program ends by itself, before its time limit and no later than the
cancellation fires.  Nothing comes before the end of a program that ends at
once. -/
def EndsFirst (script : Script) (limit : Option Float) (heeded : Bool) : Prop :=
  match script.ending with
  | .atOnce => True
  | .after e => (∀ l ∈ limit, e < l) ∧ ∀ f ∈ script.alarm heeded, ¬ f < e
  | .never => False

/-- The cancellation fires before the time limit, or after it while the program
is still there. -/
def FiresInTime (script : Script) (limit : Option Float) (heeded : Bool) : Prop :=
  (∃ f ∈ script.alarm heeded, ∀ l ∈ limit, f < l) ∨
    heeded = true ∧ ∃ l ∈ limit, script.firesBy (l + script.lingers) = true

theorem race_eq_ended_iff :
    race script.ending limit (script.alarm heeded) = .ended ↔ script.EndsFirst limit heeded := by
  rw [EndsFirst]
  cases script.ending with
  | atOnce => exact iff_of_true rfl trivial
  | after e => exact race_ended_iff e limit _
  | never => exact iff_of_false (stopCause_ne_ended _ _) not_false

theorem race_of_not_endsFirst (h : ¬ script.EndsFirst limit heeded) :
    race script.ending limit (script.alarm heeded) = stopCause limit (script.alarm heeded) := by
  cases hending : script.ending with
  | atOnce => exact absurd (by rw [EndsFirst, hending]; trivial) h
  | never => rfl
  | after e =>
    rw [EndsFirst, hending] at h
    rw [race, if_neg]
    simpa [Option.all_eq_true] using h

/-- The program ends in the course of every wait for which there is an end. -/
theorem ends_mem_instants
    (h : race script.ending limit (script.alarm heeded) ≠ .waiting) :
    ∃ instant ∈ script.instants limit heeded, Wait.Event.ends ∈ instant := by
  rw [instants]
  change race script.ending limit (if heeded then script.fireTime else none) ≠ .waiting at h
  cases hrace : race script.ending limit (if heeded then script.fireTime else none) with
  | ended => exact ⟨_, List.mem_singleton.2 rfl, List.mem_cons_self⟩
  | cancelled => exact ⟨[.ends], by simp, by simp⟩
  | timedOut =>
    refine ⟨[.ends], ?_, by simp⟩
    dsimp only
    split <;> simp
  | waiting => exact absurd hrace h

/-- The program ends, its time limit passes, or the cancellation fires. -/
def Wakes (script : Script) (limit : Option Float) (heeded : Bool) : Prop :=
  script.ending ≠ .never ∨ limit.isSome = true ∨ (script.alarm heeded).isSome = true

/-- Only a wait in which nothing ever happens has no end. -/
theorem race_eq_waiting_iff :
    race script.ending limit (script.alarm heeded) = .waiting ↔ ¬ script.Wakes limit heeded := by
  constructor
  · rintro hwaiting (hends | hlimit | halarm)
    · exact hends (Shell.never_of_race_eq_waiting hwaiting).1
    · rw [(Shell.never_of_race_eq_waiting hwaiting).2.1] at hlimit
      cases hlimit
    · rw [(Shell.never_of_race_eq_waiting hwaiting).2.2] at halarm
      cases halarm
  · intro hwakes
    simp only [Wakes, not_or, not_not, Bool.not_eq_true, Option.isSome_eq_false_iff,
      Option.isNone_iff_eq_none] at hwakes
    obtain ⟨hnever, hlimit, halarm⟩ := hwakes
    rw [hnever]
    exact Shell.stopCause_eq_waiting_iff.2 ⟨hlimit, halarm⟩

theorem wakes_of_endsFirst (h : script.EndsFirst limit heeded) : script.Wakes limit heeded := by
  refine .inl fun hnever => ?_
  rw [EndsFirst, hnever] at h
  exact h

theorem isSome_left_awaited_iff :
    (script.awaited limit heeded).left.isSome = true ↔ script.Wakes limit heeded := by
  refine ⟨fun hleft => ?_, fun hwakes => ?_⟩
  · by_contra hwakes
    have hrace := race_eq_waiting_iff.2 hwakes
    change race script.ending limit (if heeded then script.fireTime else none) = _ at hrace
    rw [awaited, instants, hrace] at hleft
    cases hleft
  · exact Wait.isSome_left_run {} (ends_mem_instants fun h => race_eq_waiting_iff.1 h hwakes)

theorem outcome_ne_waiting (h : script.Wakes limit heeded) :
    script.outcome limit heeded ≠ .waiting := fun hwaiting =>
  race_eq_waiting_iff.1 (race_of_outcome hwaiting Outcome.noConfusion) h

theorem outcome_eq_ended_iff :
    script.outcome limit heeded = .ended ↔ script.EndsFirst limit heeded := by
  rw [← race_eq_ended_iff]
  exact ⟨fun h => race_of_outcome h Outcome.noConfusion,
    fun h => outcome_of_race h Outcome.noConfusion⟩

/-- A program that does not end by itself is stopped by the cancellation if
that fires in time. -/
theorem outcome_eq_cancelled_iff (h : ¬ script.EndsFirst limit heeded) :
    script.outcome limit heeded = .cancelled ↔ script.FiresInTime limit heeded := by
  have hrace := race_of_not_endsFirst h
  have houtcome := outcome_eq script limit heeded
  change race script.ending limit (if heeded then script.fireTime else none) = _ at hrace
  rw [hrace] at houtcome
  rw [houtcome, FiresInTime, ← stopCause_eq_cancelled_iff]
  cases hcause : stopCause limit (script.alarm heeded) with
  | ended => exact absurd hcause (stopCause_ne_ended _ _)
  | cancelled => exact iff_of_true rfl (.inl rfl)
  | timedOut =>
    dsimp only
    cases heeded <;> cases limit <;> simp [firesLate]
  | waiting =>
    obtain ⟨rfl, -⟩ := Shell.stopCause_eq_waiting_iff.1 hcause
    exact iff_of_false nofun (by simp)

/-- A cancellation that fires just as the program ends does not stop it. -/
theorem firing_ne_atEnd (h : ¬ script.EndsFirst limit heeded)
    (hfires : script.FiresInTime limit heeded) :
    heeded = true ∧ script.firing ≠ .never ∧ script.firing ≠ .atEnd := by
  rcases hfires with ⟨f, hf, hlimit⟩ | ⟨hheeded, l, -, hlate⟩
  · cases heeded with
    | false => cases hf
    | true =>
      have htime : script.fireTime = some f := hf
      refine ⟨rfl, fun hnever => ?_, fun hatEnd => h ?_⟩
      · rw [fireTime, hnever] at htime
        cases htime
      · rw [fireTime, hatEnd] at htime
        rw [EndsFirst]
        cases hending : script.ending with
        | atOnce => trivial
        | never =>
          rw [endTime, hending] at htime
          cases htime
        | after e =>
          rw [endTime, hending] at htime
          obtain rfl := Option.some.inj htime
          refine ⟨hlimit, fun f' hf' => ?_⟩
          obtain rfl := Option.some.inj (hf.symm.trans hf')
          exact not_lt_self e
  · refine ⟨hheeded, fun hnever => ?_, fun hatEnd => ?_⟩
    · rw [firesBy, hnever] at hlate
      cases hlate
    · rw [firesBy, hatEnd] at hlate
      cases hlate

/-- When a run is over that was broken off, the cancellation has fired if it
was the cause. -/
theorem fires_outcome (h : ¬ script.EndsFirst limit heeded) (hwakes : script.Wakes limit heeded) :
    (heeded && script.fires (script.outcome limit heeded)) = true ↔
      script.outcome limit heeded = .cancelled := by
  cases houtcome : script.outcome limit heeded with
  | ended => exact absurd (outcome_eq_ended_iff.1 houtcome) h
  | waiting => exact absurd houtcome (outcome_ne_waiting hwakes)
  | cancelled =>
    obtain ⟨hheeded, hnever, hatEnd⟩ := firing_ne_atEnd h ((outcome_eq_cancelled_iff h).1 houtcome)
    refine iff_of_true ?_ rfl
    rw [hheeded, Bool.true_and, fires]
    cases hfiring : script.firing with
    | never => exact absurd hfiring hnever
    | atEnd => exact absurd hfiring hatEnd
    | atStart => rfl
    | after t => rfl
  | timedOut =>
    refine iff_of_false (fun hfires => ?_) Outcome.noConfusion
    obtain ⟨rfl, hfires⟩ := Bool.and_eq_true_iff.1 hfires
    have hstart : script.firing = .atStart := by
      rw [fires] at hfires
      cases hfiring : script.firing with
      | atStart => rfl
      | _ =>
        rw [hfiring] at hfires
        exact absurd hfires Bool.false_ne_true
    -- what fires at the start fires in time
    have hintime : script.FiresInTime limit true := by
      cases limit with
      | none =>
        refine .inl ⟨0, ?_, fun l hl => absurd hl (Option.not_mem_none l)⟩
        rw [alarm, if_pos rfl, fireTime, hstart]
        rfl
      | some l =>
        refine .inr ⟨rfl, l, rfl, ?_⟩
        rw [firesBy, hstart]
    exact absurd (((outcome_eq_cancelled_iff h).2 hintime).symm.trans houtcome)
      Outcome.noConfusion

/-- Without the cancellation it is the time limit that stops a program. -/
theorem isSome_limit (h : ¬ script.EndsFirst limit heeded) (hwakes : script.Wakes limit heeded)
    (hfires : ¬ script.FiresInTime limit heeded) : ∃ l, limit = some l := by
  cases limit with
  | some l => exact ⟨l, rfl⟩
  | none =>
    have hrace := race_of_not_endsFirst h
    cases halarm : script.alarm heeded with
    | none =>
      rw [halarm] at hrace
      exact absurd hwakes (race_eq_waiting_iff.1 (by rw [halarm]; exact hrace))
    | some f => exact absurd (.inl ⟨f, halarm, fun l hl => absurd hl (Option.not_mem_none l)⟩) hfires

theorem stops_awaited (h : script.Wakes limit heeded) :
    (script.awaited limit heeded).running = false ∧
      (script.awaited limit heeded).stops = if script.outcome limit heeded = .ended then 0 else 1 :=
  (Wait.sound_run Wait.sound_start _).stops_eq (isSome_left_awaited_iff.2 h)

end Script

/-! ## Runs -/

namespace Shell

variable {s : Site} {r : Request} {script : Script}

theorem courseOf_of_present (h : s.abandoned = false) (r : Request) (script : Script) :
    courseOf s r script = script.outcome r.limit s.signal.isSome := by
  unfold courseOf
  rw [h]

theorem calls_stopLatest {calls : List Call} {c : Call} (h : s.calls = calls ++ [c]) :
    s.stopLatest.calls = calls ++ [{ c with stops := c.stops + 1 }] := by
  rw [Site.stopLatest, Site.stopCall, h, List.length_append, List.length_singleton,
    Nat.add_sub_cancel]
  dsimp only
  rw [List.modify_eq_take_drop, List.take_left, List.drop_left, List.modifyHead_cons]

/-- What a run comes to is what the wait for its program comes to. -/
theorem run_of_started (hpresent : s.abandoned = false) (hfired : s.fired = false)
    (hscript : (s.takeScript r.program).1 = script) (hstarts : script.startFault = none) :
    run r s = await r script (s.launched r) ∧
      courseOf (s.launched r) r script = script.outcome r.limit s.signal.isSome := by
  refine ⟨?_, ?_⟩
  · rw [run_of_unfired hfired, hscript, hstarts]
  · have hlaunched : (s.launched r).abandoned = false := by
      rw [Site.launched_eq]
      exact hpresent
    rw [courseOf_of_present hlaunched, Site.launched_eq]

/-- A program that ends by itself is not stopped, and its status decides. -/
theorem run_of_endsFirst (hpresent : s.abandoned = false) (hfired : s.fired = false)
    (hscript : (s.takeScript r.program).1 = script) (hstarts : script.startFault = none)
    (hends : script.EndsFirst r.limit s.signal.isSome) :
    (run r s).1 = script.result r ∧ (run r s).2.calls = s.calls ++ [⟨r.words, 0⟩] := by
  obtain ⟨hrun, hcourse⟩ := run_of_started hpresent hfired hscript hstarts
  rw [hrun, await_eq, hcourse, Script.outcome_eq_ended_iff.2 hends]
  refine ⟨rfl, ?_⟩
  rw [Site.launched_eq]
  rfl

/-- A program that something else comes before is stopped once. -/
theorem run_of_not_endsFirst (hpresent : s.abandoned = false) (hfired : s.fired = false)
    (hscript : (s.takeScript r.program).1 = script) (hstarts : script.startFault = none)
    (hends : ¬ script.EndsFirst r.limit s.signal.isSome)
    (hwakes : script.Wakes r.limit s.signal.isSome) :
    (run r s).2.calls = s.calls ++ [⟨r.words, 1⟩] ∧
      ((run r s).2.fired = true ↔ script.FiresInTime r.limit s.signal.isSome) ∧
      ((run r s).2.fired = true → (run r s).1 = .error .cancelled) ∧
      ((run r s).2.fired = false →
        ∃ l, r.limit = some l ∧ (run r s).1 = .error (.timeout r.program l)) := by
  obtain ⟨hrun, hcourse⟩ := run_of_started hpresent hfired hscript hstarts
  have hcalls : (s.launched r).calls = s.calls ++ [⟨r.words, 0⟩] := by rw [Site.launched_eq]
  have hunfired : (s.launched r).fired = false := by
    rw [Site.launched_eq]
    exact hfired
  have hsignal : (s.launched r).signal = s.signal := by rw [Site.launched_eq]
  have hfires := Script.fires_outcome hends hwakes
  have hcancelled := Script.outcome_eq_cancelled_iff hends
  have hstopped : ∀ b, ((s.launched r).fire b).stopLatest.fired =
      (s.signal.isSome && b) := by
    intro b
    change ((s.launched r).fire b).fired = _
    rw [Site.fired_fire, hunfired, hsignal, Bool.false_or]
  rw [hrun, await_eq, hcourse]
  cases houtcome : script.outcome r.limit s.signal.isSome with
  | ended => exact absurd (Script.outcome_eq_ended_iff.1 houtcome) hends
  | waiting => exact absurd houtcome (Script.outcome_ne_waiting hwakes)
  | cancelled =>
    rw [houtcome] at hfires hcancelled
    have hafter := (hstopped _).trans (hfires.2 rfl)
    refine ⟨calls_stopLatest hcalls, iff_of_true hafter (hcancelled.1 rfl), fun _ => rfl,
      fun hnot => ?_⟩
    exact absurd (hnot.symm.trans hafter) Bool.false_ne_true
  | timedOut =>
    rw [houtcome] at hfires hcancelled
    have hlate : ¬ script.FiresInTime r.limit s.signal.isSome := fun h => nomatch hcancelled.2 h
    have hafter : ((s.launched r).fire (script.fires .timedOut)).stopLatest.fired ≠ true := by
      rw [hstopped]
      exact fun h => nomatch hfires.1 h
    obtain ⟨l, hlimit⟩ := Script.isSome_limit hends hwakes hlate
    refine ⟨calls_stopLatest hcalls, iff_of_false hafter hlate, fun h => absurd h hafter,
      fun _ => ⟨l, hlimit, ?_⟩⟩
    rw [hlimit]
    rfl

/-- What comes first decides what a run comes to.  Where the cancellation has
fired before, nothing is started.  A program that ends by itself before its
time limit and no later than the cancellation fires is not stopped, and its
status decides.  Any other program is stopped, once, and has ended when the
caller goes on: the run is cancelled if the cancellation has fired by then, and
out of time if not.  The caller goes on if the program ever ends, its time limit
passes or the cancellation fires. -/
theorem run_decided (r : Request) (hpresent : s.abandoned = false)
    (hscript : (s.takeScript r.program).1 = script) (hstarts : script.startFault = none) :
    (s.fired = true → run r s = (.error .cancelled, s)) ∧
    (s.fired = false →
      (script.EndsFirst r.limit s.signal.isSome →
        (script.status = 0 → (run r s).1 = .ok ⟨script.output, script.files r⟩) ∧
        (script.status ≠ 0 → (run r s).1 = .error
          (r.failure.fault (.of r.program (Text.Utf8.decodeString script.report)
            (some script.status)))) ∧
        (run r s).2.calls = s.calls ++ [⟨r.words, 0⟩] ∧
        (script.awaited r.limit s.signal.isSome).stops = 0) ∧
      (¬ script.EndsFirst r.limit s.signal.isSome → script.Wakes r.limit s.signal.isSome →
        (run r s).2.calls = s.calls ++ [⟨r.words, 1⟩] ∧
        (script.awaited r.limit s.signal.isSome).stops = 1 ∧
        (script.awaited r.limit s.signal.isSome).running = false ∧
        ((run r s).2.fired = true ↔ script.FiresInTime r.limit s.signal.isSome) ∧
        ((run r s).2.fired = true → (run r s).1 = .error .cancelled) ∧
        ((run r s).2.fired = false →
          ∃ l, r.limit = some l ∧ (run r s).1 = .error (.timeout r.program l)))) ∧
    ((script.awaited r.limit s.signal.isSome).left.isSome = true ↔
      script.Wakes r.limit s.signal.isSome) := by
  refine ⟨fun hfired => run_of_fired r (by simpa [Site.fired] using hfired),
    fun hfired => ⟨fun hends => ?_, fun hends hwakes => ?_⟩, Script.isSome_left_awaited_iff⟩
  · obtain ⟨hresult, hcalls⟩ := run_of_endsFirst hpresent hfired hscript hstarts hends
    rw [hresult, Script.result]
    refine ⟨fun hstatus => if_pos hstatus, fun hstatus => if_neg hstatus, hcalls, ?_⟩
    rw [(Script.stops_awaited (Script.wakes_of_endsFirst hends)).2,
      if_pos (Script.outcome_eq_ended_iff.2 hends)]
  · obtain ⟨hcalls, hrest⟩ := run_of_not_endsFirst hpresent hfired hscript hstarts hends hwakes
    obtain ⟨hrunning, hstops⟩ := Script.stops_awaited hwakes
    rw [if_neg fun h => hends (Script.outcome_eq_ended_iff.1 h)] at hstops
    exact ⟨hcalls, hstops, hrunning, hrest⟩

/-- A program that is stopped after two seconds and takes two more to end.  The
cancellation fires in between. -/
def tardy : Script := { ending := .after 5, firing := .after 3, gone := true, lingers := 2 }

/-- Where it is run. -/
def tardySite : Site := { scripts := [("pdftotext", [tardy])], signal := some false }

/-- The request for it. -/
def tardyRequest : Request :=
  { program := "pdftotext"
    arguments := ["-"]
    limit := some 2 }

theorem run_decided_tardy :
    (run tardyRequest tardySite).1 = .error .cancelled ∧
      (run tardyRequest tardySite).2.calls = [⟨["pdftotext", "-"], 1⟩] := by
  have hscript : (tardySite.takeScript tardyRequest.program).1 = tardy := rfl
  have hdecided := run_decided tardyRequest rfl hscript rfl
  have hends : ¬ tardy.EndsFirst (some 2) true := fun h => absurd (h.1 2 rfl) (by decide)
  obtain ⟨hcalls, -, -, hfired, hcancelled, -⟩ := (hdecided.2.1 rfl).2 hends (.inr (.inl rfl))
  exact ⟨hcancelled (hfired.2 (.inr ⟨rfl, 2, rfl, by decide⟩)), hcalls⟩

end Shell
end Intake
