import Intake.Proofs.Program.Attended
import Mathlib.Data.List.Forall2

/-!
# Steady sites

A site at which every program ends by itself and no cancellation ever
fires.  A program that is run there gives what its script says, whatever
time it takes.

There are three groups.

* Scripts.  `Script.IsCalm` is the condition on a program, and
  `Script.given` is what a start of it comes to.
* Steady sites.  `run_of_steady` says what running a program comes to.
* Sites in step.  `Site.InStep` relates two sites that have run the same
  programs, each in its own folder.
-/

namespace Intake

/-! ## Scripts -/

/-- A program ends by itself, and it does not fire a cancellation that is
heeded. -/
def Script.IsCalm (script : Script) (heeded : Bool) : Prop :=
  script.ending ≠ .never ∧ (heeded = true → script.firing = .never)

/-- What a start of a program comes to when nothing stops it. -/
def Script.given (script : Script) (r : Request) : Except Fault Yield :=
  match script.startFault with
  | some e => .error e
  | none => script.result r

theorem isCalm_default (heeded : Bool) : Script.IsCalm {} heeded :=
  ⟨Ending.noConfusion, fun _ => rfl⟩

/-- Nothing comes before the end of a calm program. -/
theorem Script.IsCalm.outcome_eq_ended {script : Script} {heeded : Bool}
    (h : script.IsCalm heeded) : script.outcome none heeded = .ended := by
  have hfires : (if heeded then script.fireTime else none) = none := by
    cases heeded with
    | false => rfl
    | true => rw [if_pos rfl, Script.fireTime, h.2 rfl]
  refine Script.outcome_of_race ?_ Outcome.noConfusion
  rw [hfires]
  cases hending : script.ending with
  | atOnce => rfl
  | after t => rfl
  | never => exact absurd hending h.1

/-! ## Steady sites -/

/-- The caller is not given up, the cancellation has not fired, and no
program keeps the caller waiting or fires it. -/
structure Site.Steady (s : Site) : Prop where
  present : s.abandoned = false
  unfired : s.fired = false
  calm : ∀ p ∈ s.scripts, ∀ script ∈ p.2, script.IsCalm s.signal.isSome

/-- A site once a program was started. -/
def Site.launched (s : Site) (r : Request) : Site := (Shell.launch r s).2

namespace Site

variable {s t : Site}

theorem launched_eq (s : Site) (r : Request) :
    s.launched r =
      { s with
        book := (s.book.note .program .debug ("exec: " ++ " ".intercalate r.words)).tick
          (s.takeScript r.program).1.tick
        scripts := (s.takeScript r.program).2.scripts
        calls := s.calls ++ [⟨r.words, 0⟩] } := by
  simp only [launched, Shell.launch]
  split
  · rfl
  · rfl

@[simp]
theorem scratch_launched (s : Site) (r : Request) : (s.launched r).scratch = s.scratch := by
  rw [launched_eq]

@[simp]
theorem scratch_note (s : Site) (source : Source) (level : Level) (text : String) :
    (s.note source level text).scratch = s.scratch := rfl

theorem launch_eq (s : Site) (r : Request) :
    Shell.launch r s =
      (match (s.takeScript r.program).1.startFault with
        | some e => .error e
        | none => .ok (s.takeScript r.program).1, s.launched r) := by
  have hscript : ((s.note .program .debug ("exec: " ++ " ".intercalate r.words)).takeScript
      r.program).1 = (s.takeScript r.program).1 := rfl
  simp only [launched, Shell.launch, hscript]
  cases (s.takeScript r.program).1.startFault with
  | some e => rfl
  | none => rfl

theorem Steady.congr (h : s.Steady) (habandoned : t.abandoned = s.abandoned)
    (hsignal : t.signal = s.signal) (hscripts : t.scripts = s.scripts) : t.Steady := by
  refine ⟨?_, ?_, ?_⟩
  · rw [habandoned]
    exact h.present
  · rw [fired, hsignal]
    exact h.unfired
  · rw [hscripts, hsignal]
    exact h.calm

theorem Steady.isCalm_takeScript (h : s.Steady) (program : String) :
    (s.takeScript program).1.IsCalm s.signal.isSome := by
  rcases takeScript_cases s program with hdefault | ⟨scripts, hp, hmem⟩
  · rw [hdefault]
    exact isCalm_default _
  · exact h.calm _ hp _ hmem

theorem Steady.launched (h : s.Steady) (r : Request) : (s.launched r).Steady := by
  have htaken : ((s.takeScript r.program).2).Steady := by
    refine ⟨h.present, h.unfired, ?_⟩
    rintro ⟨name, scripts⟩ hp script hscript
    obtain ⟨old, hold, hmem⟩ := mem_of_mem_takeScript hp hscript
    exact h.calm _ hold script hmem
  rw [launched_eq]
  exact htaken.congr rfl rfl rfl

theorem fired_fire (s : Site) (fires : Bool) :
    (s.fire fires).fired = (s.fired || (s.signal.isSome && fires)) := by
  cases hsignal : s.signal with
  | none => simp [fire, fired, hsignal]
  | some b => cases b <;> cases fires <;> simp [fire, fired, hsignal]

theorem fire_eq_self {script : Script}
    (hquiet : s.signal.isSome = true → script.firing = .never) (o : Outcome) :
    s.fire (script.fires o) = s := by
  have hsignal : s.signal.map (· || script.fires o) = s.signal := by
    cases hs : s.signal with
    | none => rfl
    | some b =>
      have hfires : script.fires o = false := by
        rw [Script.fires, hquiet (by rw [hs]; rfl)]
      rw [hfires, Option.map_some, Bool.or_false]
  rw [fire, hsignal]

end Site

/-- A program is started and waited for where the cancellation has not fired. -/
theorem Shell.run_of_unfired {s : Site} (h : s.fired = false) (r : Request) :
    Shell.run r s =
      match (s.takeScript r.program).1.startFault with
      | some e => (.error e, s.launched r)
      | none => Shell.await r (s.takeScript r.program).1 (s.launched r) := by
  have hlaunch := Site.launch_eq s r
  rw [Shell.run, Shell.bind_of_ok (Shell.check_of_unfired h)]
  cases hfault : (s.takeScript r.program).1.startFault with
  | some e =>
    rw [hfault] at hlaunch
    exact Shell.bind_of_error hlaunch
  | none =>
    rw [hfault] at hlaunch
    exact Shell.bind_of_ok hlaunch

/-- A program that is run without a time limit gives what its script says. -/
theorem run_of_steady {s : Site} (h : s.Steady) {r : Request} (hr : r.limit = none) :
    Shell.run r s = ((s.takeScript r.program).1.given r, s.launched r) := by
  rw [Shell.run_of_unfired h.unfired, Script.given]
  cases (s.takeScript r.program).1.startFault with
  | some e => rfl
  | none =>
    have hsignal : (s.launched r).signal = s.signal := by rw [Site.launched_eq]
    have hcalm : (s.takeScript r.program).1.IsCalm (s.launched r).signal.isSome := by
      rw [hsignal]
      exact h.isCalm_takeScript r.program
    have hcourse : Shell.courseOf (s.launched r) r (s.takeScript r.program).1 = .ended := by
      rw [Shell.courseOf, (h.launched r).present, hr]
      exact hcalm.outcome_eq_ended
    dsimp only
    rw [Shell.await_eq, hcourse, Site.fire_eq_self hcalm.2]

/-! ## Sites in step -/

/-- Two words are the same, or the same path in two folders. -/
inductive SameWord (here there : String) : String → String → Prop where
  | word (w : String) : SameWord here there w w
  | path (p : String) : SameWord here there (here ++ p) (there ++ p)

/-- Two starts of one program, up to the folder. -/
structure Call.Matches (here there : String) (c d : Call) : Prop where
  arguments : List.Forall₂ (SameWord here there) c.arguments d.arguments
  stopped : c.stopped = d.stopped

/-- Two requests for one program without a time limit, up to the folder. -/
structure Request.Matches (here there : String) (r q : Request) : Prop where
  program : r.program = q.program
  arguments : List.Forall₂ (SameWord here there) r.arguments q.arguments
  left : r.limit = none
  right : q.limit = none

/-- Two steady sites at which the same programs were started and the same
programs are to do the same.  Their logbooks, tools and models may differ. -/
structure Site.InStep (s t : Site) : Prop where
  left : s.Steady
  right : t.Steady
  scripts : s.scripts = t.scripts
  calls : List.Forall₂ (Call.Matches s.scratch t.scratch) s.calls t.calls

namespace Site.InStep

variable {s t : Site}

theorem note_left (h : s.InStep t) (source : Source) (level : Level) (text : String) :
    (s.note source level text).InStep t :=
  ⟨h.left.congr rfl rfl rfl, h.right, h.scripts, h.calls⟩

theorem note_right (h : s.InStep t) (source : Source) (level : Level) (text : String) :
    s.InStep (t.note source level text) :=
  ⟨h.left, h.right.congr rfl rfl rfl, h.scripts, h.calls⟩

theorem takeScript_eq (h : s.InStep t) (program : String) :
    (s.takeScript program).1 = (t.takeScript program).1 := by
  rw [takeScript, takeScript, h.scripts]

theorem launched {r q : Request} (h : s.InStep t) (hr : r.Matches s.scratch t.scratch q) :
    (s.launched r).InStep (t.launched q) := by
  refine ⟨h.left.launched r, h.right.launched q, ?_, ?_⟩
  · rw [launched_eq, launched_eq]
    show (s.takeScript r.program).2.scripts = (t.takeScript q.program).2.scripts
    rw [takeScript, takeScript, h.scripts, hr.program]
  · have hwords : List.Forall₂ (SameWord s.scratch t.scratch) r.words q.words := by
      rw [Request.words, Request.words, hr.program]
      exact .cons (.word _) hr.arguments
    rw [scratch_launched, scratch_launched, launched_eq, launched_eq]
    exact List.rel_append h.calls (.cons ⟨hwords, rfl⟩ .nil)

end Site.InStep
end Intake
