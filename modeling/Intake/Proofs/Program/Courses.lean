import Intake.Batch
import Intake.Proofs.Program.Layers
import Mathlib.Logic.Relation

/-!
# Courses of a site

What happens at a site, one thing after the other, and when a cancellation
that has fired is noticed.  No program is started once it has fired, and it
is left unnoticed only when nothing looks at it any more.

There are three groups.

* Courses.  `Site.Event` is one thing that happens and `Site.Course` is a
  sequence of them.  `Site.Unnoticed` says where on a course a cancellation
  fired that nothing has looked at.
* Computations.  `Shell.Follows` says that a computation takes such a course,
  with a rule for each way of putting computations together.
* Layers.  `isInherited_follows` says that the layers do.
-/

namespace Intake

/-! ## Courses -/

namespace Site

/-- Nothing but the logbook and what is known about tools is changed. -/
structure Rests (s t : Site) : Prop where
  scratch : t.scratch = s.scratch
  scripts : t.scripts = s.scripts
  calls : t.calls = s.calls
  signal : t.signal = s.signal
  abandoned : t.abandoned = s.abandoned
  desk : t.desk = s.desk

/-- One thing that happens at a site.  A program is run only where the
cancellation has not fired. -/
inductive Event (s : Site) : Site → Prop where
  | rests {t : Site} (h : s.Rests t) : Event s t
  | runs (r : Request) (h : s.fired = false) : Event s (Shell.run r s).2
  | asks (client : ChatClient) (messages : List Message) :
      Event s (Shell.complete client messages s).2

/-- What happens at a site, one thing after the other. -/
def Course : Site → Site → Prop := Relation.ReflTransGen Event

/-- The cancellation has fired and nothing has looked at it since.  It had
fired before and no program was to be run, or it fired during the last
program, which was not stopped by it. -/
inductive Unnoticed (s u : Site) : Prop where
  | before (h : s.fired = true) (hrests : s.Rests u) : Unnoticed s u
  | last {v : Site} (r : Request) (hcourse : s.Course v) (hv : v.fired = false)
      (hfired : (Shell.run r v).2.fired = true)
      (hended : ∀ e, (Shell.run r v).1 = .error e → e.isCancelled = false)
      (hrests : (Shell.run r v).2.Rests u) : Unnoticed s u

variable {s t u : Site}

theorem Rests.rfl : s.Rests s := ⟨Eq.refl _, Eq.refl _, Eq.refl _, Eq.refl _, Eq.refl _, Eq.refl _⟩

theorem Rests.trans (h : s.Rests t) (h' : t.Rests u) : s.Rests u :=
  ⟨h'.scratch.trans h.scratch, h'.scripts.trans h.scripts, h'.calls.trans h.calls,
    h'.signal.trans h.signal, h'.abandoned.trans h.abandoned, h'.desk.trans h.desk⟩

theorem Rests.fired_eq (h : s.Rests t) : t.fired = s.fired := by
  rw [fired, fired, h.signal]

/-- Records change nothing else. -/
theorem rests_records {α : Type} (record : α → Record) (items : List α) (s : Site) :
    s.Rests (items.foldl (fun (site : Site) a =>
      site.note (record a).source (record a).level (record a).text) s) := by
  induction items generalizing s with
  | nil => exact .rfl
  | cons a rest ih =>
    have hnote : s.Rests (s.note (record a).source (record a).level (record a).text) :=
      ⟨rfl, rfl, rfl, rfl, rfl, rfl⟩
    exact hnote.trans (ih _)

theorem rests_ask {α : Type} (question : StateM Tools α) : s.Rests (s.ask question).2 := by
  have hnotes : s.Rests _ := rests_records (fun t : Tool => ⟨.tools, .debug, t.name ++
    " not found on PATH, related extraction layer disabled"⟩)
    (((question s.tools).2.lookups.drop s.tools.lookups.length).filter fun t =>
      (question s.tools).2.known.lookup t == some false) s
  exact ⟨hnotes.scratch, hnotes.scripts, hnotes.calls, hnotes.signal, hnotes.abandoned,
    hnotes.desk⟩

/-- What is unnoticed on the second part of a course is unnoticed on the
whole of it. -/
theorem Unnoticed.of_course (hcourse : s.Course t) (h : t.fired = true → s.Unnoticed t)
    (hlater : t.Unnoticed u) : s.Unnoticed u := by
  cases hlater with
  | before hfired hrests =>
    cases h hfired with
    | before hfired' hrests' => exact .before hfired' (hrests'.trans hrests)
    | last r hcourse' hv hfired' hended hrests' =>
      exact .last r hcourse' hv hfired' hended (hrests'.trans hrests)
  | last r hcourse' hv hfired hended hrests =>
    exact .last r (Relation.ReflTransGen.trans hcourse hcourse') hv hfired hended hrests

end Site

/-! ## Computations -/

namespace Shell

variable {α β : Type}

/-- An outcome that is no cancellation. -/
def Heedless (outcome : Except Fault α) : Prop :=
  ∀ e, outcome = .error e → e.isCancelled = false

/-- A computation takes a course.  When it has an outcome of a certain kind
and the cancellation has fired by then, nothing has noticed it. -/
def Follows (P : Except Fault α → Prop) (x : Shell α) : Prop :=
  ∀ s, s.Course (x s).2 ∧ (P (x s).1 → (x s).2.fired = true → s.Unnoticed (x s).2)

section Following

variable {P : Except Fault α → Prop} {x : Shell α}

theorem Follows.of_rests (h : ∀ s : Site, s.Rests (x s).2) : Follows P x := by
  refine fun s => ⟨.single (.rests (h s)), fun _ hfired => ?_⟩
  exact .before ((h s).fired_eq.symm.trans hfired) (h s)

theorem Follows.pure (a : α) : Follows P (Pure.pure a : Shell α) := .of_rests fun _ => .rfl

theorem Follows.report (f : Logbook → Logbook) {P : Except Fault Unit → Prop} :
    Follows P (Shell.report f) := .of_rests fun _ => ⟨rfl, rfl, rfl, rfl, rfl, rfl⟩

theorem Follows.ite {c : Prop} [Decidable c] {y : Shell α} (hx : Follows P x)
    (hy : Follows P y) : Follows P (if c then x else y) := by
  split
  · exact hx
  · exact hy

/-- The outcomes in question of the whole come from outcomes in question of
the first part. -/
theorem Follows.bind_of {Q : Except Fault α → Prop} {P : Except Fault β → Prop} {f : α → Shell β}
    (hx : Follows Q x) (hf : ∀ a, Follows P (f a)) (hok : ∀ a t, P (f a t).1 → Q (.ok a))
    (herror : ∀ e, P (.error e) → Q (.error e)) : Follows P (x >>= f) := by
  intro s
  obtain ⟨hcourse, hquiet⟩ := hx s
  rcases hrun : x s with ⟨outcome, t⟩
  rw [hrun] at hcourse hquiet
  cases outcome with
  | ok a =>
    rw [bind_of_ok hrun]
    obtain ⟨hcourse', hquiet'⟩ := hf a t
    refine ⟨hcourse.trans hcourse', fun hP hfired => ?_⟩
    exact .of_course hcourse (hquiet (hok a t hP)) (hquiet' hP hfired)
  | error e =>
    rw [bind_of_error hrun]
    exact ⟨hcourse, fun hP => hquiet (herror e hP)⟩

theorem Follows.bind {f : α → Shell β} (hx : Follows Heedless x)
    (hf : ∀ a, Follows Heedless (f a)) : Follows Heedless (x >>= f) := by
  refine hx.bind_of hf (fun a t _ => nofun) fun e h e' he' => ?_
  rw [← Except.error.inj he']
  exact h e rfl

theorem Follows.map (hx : Follows Heedless x) (f : α → β) : Follows Heedless (f <$> x) := by
  rw [map_eq_pure_bind]
  exact hx.bind fun a => .pure (f a)

theorem Follows.tryCatch_of {Q : Except Fault α → Prop} {handle : Fault → Shell α}
    (hx : Follows Q x) (hhandle : ∀ e, Follows P (handle e)) (hok : ∀ a, P (.ok a) → Q (.ok a))
    (herror : ∀ e t, P (handle e t).1 → Q (.error e)) : Follows P (tryCatch x handle) := by
  intro s
  obtain ⟨hcourse, hquiet⟩ := hx s
  rcases hrun : x s with ⟨outcome, t⟩
  rw [hrun] at hcourse hquiet
  cases outcome with
  | ok a =>
    rw [tryCatch_of_ok hrun]
    exact ⟨hcourse, fun hP => hquiet (hok a hP)⟩
  | error e =>
    rw [tryCatch_of_error hrun]
    obtain ⟨hcourse', hquiet'⟩ := hhandle e t
    refine ⟨hcourse.trans hcourse', fun hP hfired => ?_⟩
    exact .of_course hcourse (hquiet (herror e t hP)) (hquiet' hP hfired)

theorem Follows.course_tryCatch {handle : Fault → Shell α} (hx : Follows (fun _ => False) x)
    (hhandle : ∀ e, Follows (fun _ => False) (handle e)) :
    Follows (fun _ => False) (tryCatch x handle) :=
  hx.tryCatch_of hhandle (fun _ => id) fun _ _ => id

/-- A handler that hands cancellations on. -/
theorem Follows.tryCatch {handle : Fault → Shell α} (hx : Follows Heedless x)
    (hhandle : ∀ e, Follows Heedless (handle e))
    (hthrow : ∀ e, e.isCancelled = true → handle e = throw e) :
    Follows Heedless (tryCatch x handle) := by
  refine hx.tryCatch_of hhandle (fun a _ => nofun) fun e t h e' he' => ?_
  obtain rfl : e = e' := Except.error.inj he'
  cases hcancelled : e.isCancelled with
  | false => rfl
  | true =>
    rw [hthrow e hcancelled] at h
    exact (h e rfl).symm.trans hcancelled |>.symm

theorem Follows.throw (e : Fault) : Follows P (throw e : Shell α) := .of_rests fun _ => .rfl

/-- A course, whatever comes of it. -/
theorem Follows.course (hx : Follows P x) : Follows (fun _ => False) x :=
  fun s => ⟨(hx s).1, False.elim⟩

theorem Follows.course_bind {f : α → Shell β} (hx : Follows (fun _ => False) x)
    (hf : ∀ a, Follows (fun _ => False) (f a)) : Follows (fun _ => False) (x >>= f) :=
  hx.bind_of hf (fun _ _ => id) fun _ => id

end Following

/-! ## Layers -/

theorem follows_check : Follows Heedless check := by
  intro s
  cases hfired : s.fired with
  | false => exact ⟨.refl, fun _ h => absurd (hfired.symm.trans h) Bool.false_ne_true⟩
  | true =>
    rw [check, hfired]
    exact ⟨.refl, fun h => absurd (h .cancelled rfl) (by decide)⟩

theorem follows_run (r : Request) : Follows Heedless (run r) := by
  intro s
  cases hfired : s.fired with
  | false =>
    refine ⟨.single (.runs r hfired), fun hended hafter => ?_⟩
    exact .last r .refl hfired hafter hended .rfl
  | true =>
    rw [run_of_fired r (by simpa [Site.fired] using hfired)]
    exact ⟨.refl, fun h => absurd (h .cancelled rfl) (by decide)⟩

theorem follows_complete (client : ChatClient) (messages : List Message) :
    Follows (fun _ => False) (complete client messages) :=
  fun _ => ⟨.single (.asks client messages), False.elim⟩

end Shell

/-- The layers start no program once the cancellation has fired, and one of
them that ends without a cancellation has not noticed that it has. -/
theorem isInherited_follows :
    Shell.IsInherited fun {α : Type} (x : Shell α) => Shell.Follows Shell.Heedless x where
  pure a := .pure a
  bind hx hf := hx.bind hf
  get := .of_rests fun _ => .rfl
  ask question := .of_rests fun _ => Site.rests_ask question
  note source level text := .of_rests fun _ => ⟨rfl, rfl, rfl, rfl, rfl, rfl⟩
  check := Shell.follows_check
  run {r} _ := Shell.follows_run r
  page output := by
    cases PageReading.pageOf output with
    | ok page => exact .pure page
    | error e => exact .throw e
  skip hx hhandle := by
    refine hx.tryCatch (fun e => .ite (hhandle e) (.throw e)) fun e he => if_neg ?_
    rw [Fault.isTool_eq_false_of_isCancelled he]
    exact Bool.false_ne_true

end Intake
