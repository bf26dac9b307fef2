import Intake.Proofs.Program.Steady

/-!
# Orderly sites

A site at which no cancellation ever fires and every program that is waited
for without a time limit ends by itself.  What reads pages there does not
depend on the text extractor, the logbook, the tools or the model.

There are three groups.

* Orderly sites.  `Site.Orderly` is the condition, and `Site.spared` is a
  steady site without the text extractor.
* What reading pages depends on.  `Site.ReadsAlike` relates two sites that
  agree on it.
* Computations.  `Shell.Respects` says that a computation does the same at two
  such sites, with a rule for each way of putting computations together.
-/

namespace Intake

/-! ## Orderly sites -/

/-- The caller is not given up, the cancellation never fires, and every
program but the text extractor ends by itself.  The text extractor may go on
for ever, since it has a time limit. -/
structure Site.Orderly (s : Site) : Prop where
  present : s.abandoned = false
  unfired : s.fired = false
  ends : ∀ p ∈ s.scripts, p.1 ≠ Tool.textExtractor.name → ∀ script ∈ p.2, script.ending ≠ .never
  quiet : s.signal.isSome = true → ∀ p ∈ s.scripts, ∀ script ∈ p.2, script.firing = .never

namespace Site

variable {s t u : Site}

theorem Orderly.congr (h : s.Orderly) (habandoned : t.abandoned = s.abandoned)
    (hsignal : t.signal = s.signal) (hscripts : t.scripts = s.scripts) : t.Orderly := by
  refine ⟨?_, ?_, ?_, ?_⟩
  · rw [habandoned]
    exact h.present
  · rw [fired, hsignal]
    exact h.unfired
  · rw [hscripts]
    exact h.ends
  · rw [hsignal, hscripts]
    exact h.quiet

/-- A site without a cancellation is as orderly. -/
theorem Orderly.unsignalled (h : s.Orderly) : Orderly { s with signal := none } :=
  ⟨h.present, rfl, h.ends, fun hsome => absurd hsome Bool.false_ne_true⟩

theorem Orderly.quiet_takeScript (h : s.Orderly) (program : String)
    (hsignal : s.signal.isSome = true) : (s.takeScript program).1.firing = .never := by
  rcases takeScript_cases s program with hdefault | ⟨scripts, hp, hmem⟩
  · rw [hdefault]
  · exact h.quiet hsignal _ hp _ hmem

theorem Orderly.launched (h : s.Orderly) (r : Request) : (s.launched r).Orderly := by
  have htaken : ((s.takeScript r.program).2).Orderly := by
    refine ⟨h.present, h.unfired, ?_, ?_⟩
    · rintro ⟨name, scripts⟩ hp hname script hscript
      obtain ⟨old, hold, hmem⟩ := mem_of_mem_takeScript hp hscript
      exact h.ends _ hold hname script hmem
    · rintro hsignal ⟨name, scripts⟩ hp script hscript
      obtain ⟨old, hold, hmem⟩ := mem_of_mem_takeScript hp hscript
      exact h.quiet hsignal _ hold script hmem
  rw [launched_eq]
  exact htaken.congr rfl rfl rfl

/-- The site without what the text extractor will do. -/
def spared (s : Site) : Site :=
  { s with scripts := s.scripts.filter fun p => p.1 != Tool.textExtractor.name }

theorem Orderly.steady_spared (h : s.Orderly) : s.spared.Steady := by
  refine ⟨h.present, h.unfired, fun p hp script hscript => ?_⟩
  obtain ⟨hmem, hname⟩ := List.mem_filter.1 hp
  exact ⟨h.ends p hmem (bne_iff_ne.1 hname) script hscript,
    fun hsignal => h.quiet hsignal p hmem script hscript⟩

/-! ## What reading pages depends on -/

/-- Two sites that agree on all that reading pages depends on. -/
structure ReadsAlike (s t : Site) : Prop where
  scratch : t.scratch = s.scratch
  scripts : ∀ program, program ≠ Tool.textExtractor.name →
    t.scripts.lookup program = s.scripts.lookup program
  signal : t.signal = s.signal
  abandoned : t.abandoned = s.abandoned

theorem ReadsAlike.rfl : s.ReadsAlike s := ⟨by rfl, fun _ _ => by rfl, by rfl, by rfl⟩

theorem ReadsAlike.trans (h : s.ReadsAlike t) (h' : t.ReadsAlike u) : s.ReadsAlike u :=
  ⟨h'.scratch.trans h.scratch, fun p hp => (h'.scripts p hp).trans (h.scripts p hp),
    h'.signal.trans h.signal, h'.abandoned.trans h.abandoned⟩

theorem ReadsAlike.symm (h : s.ReadsAlike t) : t.ReadsAlike s :=
  ⟨h.scratch.symm, fun p hp => (h.scripts p hp).symm, h.signal.symm, h.abandoned.symm⟩

theorem lookup_filter_ne {α : Type} {name program : String} (hne : program ≠ name)
    (entries : List (String × α)) :
    (entries.filter fun p => p.1 != name).lookup program = entries.lookup program := by
  induction entries with
  | nil => rfl
  | cons p rest ih =>
    rcases p with ⟨key, a⟩
    by_cases hkey : key = name
    · subst hkey
      rw [List.filter_cons_of_neg (by simp), ih, List.lookup_cons, beq_false_of_ne hne]
    · rw [List.filter_cons_of_pos (by simpa using hkey), List.lookup_cons, List.lookup_cons, ih]

theorem readsAlike_spared (s : Site) : s.ReadsAlike s.spared :=
  ⟨rfl, fun _ hne => lookup_filter_ne hne s.scripts, rfl, rfl⟩

theorem lookup_takeScript (program name : String) (scripts : List (String × List Script)) :
    (scripts.map fun (name, scripts) =>
      (name, if name == program then scripts.tail else scripts)).lookup name =
        (scripts.lookup name).map fun scripts =>
          if name == program then scripts.tail else scripts := by
  induction scripts with
  | nil => rfl
  | cons p rest ih =>
    rcases p with ⟨key, entry⟩
    rw [List.map_cons, List.lookup_cons, List.lookup_cons, ih]
    cases hname : name == key with
    | false => rfl
    | true =>
      rw [beq_iff_eq.1 hname]
      rfl

theorem ReadsAlike.takeScript_eq (h : s.ReadsAlike t) {program : String}
    (hne : program ≠ Tool.textExtractor.name) :
    (t.takeScript program).1 = (s.takeScript program).1 := by
  rw [takeScript, takeScript, h.scripts program hne]

theorem ReadsAlike.note (h : s.ReadsAlike t) (source : Source) (level : Level) (text : String) :
    (s.note source level text).ReadsAlike (t.note source level text) :=
  ⟨h.scratch, h.scripts, h.signal, h.abandoned⟩

theorem ReadsAlike.fired_eq (h : s.ReadsAlike t) : t.fired = s.fired := by
  rw [fired, fired, h.signal]

theorem ReadsAlike.launched (h : s.ReadsAlike t) (r : Request) :
    (s.launched r).ReadsAlike (t.launched r) := by
  rw [launched_eq, launched_eq]
  refine ⟨h.scratch, fun name hne => ?_, h.signal, h.abandoned⟩
  show ((t.takeScript r.program).2.scripts).lookup name = _
  rw [takeScript, takeScript, lookup_takeScript, lookup_takeScript, h.scripts name hne]

theorem ReadsAlike.launch_eq (h : s.ReadsAlike t) {r : Request}
    (hr : r.program ≠ Tool.textExtractor.name) :
    Shell.launch r t = ((Shell.launch r s).1, t.launched r) := by
  rw [Site.launch_eq, Site.launch_eq, h.takeScript_eq hr]

end Site

/-! ## Computations -/

namespace Shell

variable {α β : Type}

/-- A computation gives the same at sites that agree on what reading pages
depends on, and leaves such sites. -/
def Respects (x : Shell α) : Prop :=
  ∀ s t : Site, s.ReadsAlike t → (x t).1 = (x s).1 ∧ (x s).2.ReadsAlike (x t).2

theorem respects_pure (a : α) : Respects (pure a : Shell α) := fun _ _ h => ⟨rfl, h⟩

theorem respects_throw (e : Fault) : Respects (throw e : Shell α) := fun _ _ h => ⟨rfl, h⟩

theorem Respects.bind {x : Shell α} {f : α → Shell β} (hx : Respects x)
    (hf : ∀ a, Respects (f a)) : Respects (x >>= f) := by
  intro s t h
  obtain ⟨houtcome, hafter⟩ := hx s t h
  rcases hs : x s with ⟨outcome, s'⟩
  rcases ht : x t with ⟨outcome', t'⟩
  rw [hs, ht] at houtcome hafter
  obtain rfl : outcome' = outcome := houtcome
  cases outcome' with
  | ok a =>
    rw [bind_of_ok hs, bind_of_ok ht]
    exact hf a s' t' hafter
  | error e =>
    rw [bind_of_error hs, bind_of_error ht]
    exact ⟨rfl, hafter⟩

theorem Respects.tryCatch {x : Shell α} {handle : Fault → Shell α} (hx : Respects x)
    (hhandle : ∀ e, Respects (handle e)) : Respects (tryCatch x handle) := by
  intro s t h
  obtain ⟨houtcome, hafter⟩ := hx s t h
  rcases hs : x s with ⟨outcome, s'⟩
  rcases ht : x t with ⟨outcome', t'⟩
  rw [hs, ht] at houtcome hafter
  obtain rfl : outcome' = outcome := houtcome
  cases outcome' with
  | ok a =>
    rw [tryCatch_of_ok hs, tryCatch_of_ok ht]
    exact ⟨rfl, hafter⟩
  | error e =>
    rw [tryCatch_of_error hs, tryCatch_of_error ht]
    exact hhandle e s' t' hafter

theorem Respects.map {x : Shell α} (hx : Respects x) (f : α → β) : Respects (f <$> x) := by
  rw [map_eq_pure_bind]
  exact hx.bind fun a => respects_pure (f a)

theorem Respects.ite {c : Prop} [Decidable c] {x y : Shell α} (hx : Respects x)
    (hy : Respects y) : Respects (if c then x else y) := by
  split
  · exact hx
  · exact hy

/-- Only the folder of the site may be looked at. -/
theorem respects_scratch {f : String → Shell α} (hf : ∀ folder, Respects (f folder)) :
    Respects (get >>= fun site : Site => f site.scratch) := by
  intro s t h
  have hget : ∀ u : Site, (get : Shell Site) u = (.ok u, u) := fun _ => rfl
  rw [bind_of_ok (hget s), bind_of_ok (hget t), h.scratch]
  exact hf s.scratch s t h

theorem respects_note (source : Source) (level : Level) (text : String) :
    Respects (note source level text) := fun _ _ h => ⟨rfl, h.note source level text⟩

theorem respects_check : Respects check := by
  intro s t h
  rw [check, check, h.fired_eq]
  exact ⟨rfl, h⟩

theorem respects_launch {r : Request} (hr : r.program ≠ Tool.textExtractor.name) :
    Respects (launch r) := by
  intro s t h
  rw [h.launch_eq hr]
  exact ⟨rfl, h.launched r⟩

theorem respects_await (r : Request) (script : Script) : Respects (await r script) := by
  intro s t h
  have hcourse : courseOf t r script = courseOf s r script := by
    rw [courseOf, courseOf, h.abandoned, h.signal]
  have hfired : ∀ b, (s.fire b).ReadsAlike (t.fire b) :=
    fun b => ⟨h.scratch, h.scripts, congrArg (Option.map (· || b)) h.signal, h.abandoned⟩
  have hstopped : ∀ b, (s.fire b).stopLatest.ReadsAlike (t.fire b).stopLatest :=
    fun b => ⟨(hfired b).scratch, (hfired b).scripts, (hfired b).signal, (hfired b).abandoned⟩
  rw [await_eq, await_eq, hcourse]
  cases courseOf s r script with
  | ended => exact ⟨rfl, hfired _⟩
  | cancelled => exact ⟨rfl, hstopped _⟩
  | timedOut => exact ⟨rfl, hstopped _⟩
  | waiting => exact ⟨rfl, hstopped _⟩

theorem respects_run {r : Request} (hr : r.program ≠ Tool.textExtractor.name) :
    Respects (run r) :=
  respects_check.bind fun _ => (respects_launch hr).bind fun script => respects_await r script

end Shell
end Intake
