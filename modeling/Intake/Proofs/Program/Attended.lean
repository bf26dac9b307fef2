import Intake.Proofs.Program.Layers

/-!
# Attended sites

A site whose caller is never given up: no wait is for something that never
comes.  The layers that run programs keep a site attended and never touch
its model.

There are three groups.

* Sites.  `Site.Attended` is the property and `Site.AtDesk` fixes the model
  beside it.
* Programs.  `keeps_run` says that a program that is run ends or fails, with
  one lemma for the start and one for the wait.
* Layers.  `keeps_extract` and `keeps_read` are the results.
-/

namespace Intake

/-! ## Sites -/

/-- A program that is waited for without a time limit is not waited for in
vain: when it never ends by itself, it fires the cancellation that stops
it. -/
def Script.Ends (script : Script) (heeded : Bool) : Prop :=
  script.ending = .never → heeded = true ∧ script.firing = .atStart

/-- The caller is not given up, neither by itself nor by a program or a
model, and no program without a time limit goes on for ever. -/
structure Site.Attended (s : Site) : Prop where
  present : s.abandoned = false
  starts : ∀ p ∈ s.scripts, ∀ script ∈ p.2, script.startFault ≠ some .abandoned
  ends : ∀ p ∈ s.scripts, p.1 ≠ Tool.textExtractor.name →
    ∀ script ∈ p.2, script.Ends s.signal.isSome
  answers : ∀ r ∈ s.desk.replies, r.answer ≠ .refuses .abandoned

/-- An attended site with a given model. -/
structure Site.AtDesk (d : Desk) (s : Site) : Prop where
  attended : s.Attended
  desk : s.desk = d

/-- A fault of something else than giving up. -/
def Fault.IsOrdinary (e : Fault) : Prop := e ≠ .abandoned

theorem Fault.IsOrdinary.isAbandoned_eq_false {e : Fault} (h : e.IsOrdinary) :
    e.isAbandoned = false := by
  cases e with
  | abandoned => exact absurd rfl h
  | _ => rfl

namespace Site

variable {d : Desk} {s t : Site}

/-- The logbook, the tools and the calls of a site do not matter. -/
theorem AtDesk.congr (h : s.AtDesk d) (habandoned : t.abandoned = s.abandoned)
    (hscripts : t.scripts = s.scripts) (hsignal : t.signal.isSome = s.signal.isSome)
    (hdesk : t.desk = s.desk) : t.AtDesk d := by
  refine ⟨⟨?_, ?_, ?_, ?_⟩, ?_⟩
  · rw [habandoned]
    exact h.attended.present
  · rw [hscripts]
    exact h.attended.starts
  · rw [hscripts, hsignal]
    exact h.attended.ends
  · rw [hdesk]
    exact h.attended.answers
  · rw [hdesk]
    exact h.desk

theorem atDesk_note (h : s.AtDesk d) (source : Source) (level : Level) (text : String) :
    (s.note source level text).AtDesk d := h.congr rfl rfl rfl rfl

/-- Records change nothing but the logbook. -/
theorem notes_eq (source : Source) (level : Level) (texts : List String) (s : Site) :
    ∃ book, texts.foldl (fun (s : Site) text => s.note source level text) s =
      { s with book := book } := by
  induction texts generalizing s with
  | nil => exact ⟨s.book, rfl⟩
  | cons text rest ih => exact ih (s.note source level text)

theorem atDesk_notes {α : Type} (f : α → String) (source : Source) (level : Level)
    (items : List α) (h : s.AtDesk d) :
    (items.foldl (fun (s : Site) a => s.note source level (f a)) s).AtDesk d := by
  induction items generalizing s with
  | nil => exact h
  | cons a rest ih => exact ih (atDesk_note h source level (f a))

theorem atDesk_ask {α : Type} (question : StateM Tools α) (h : s.AtDesk d) :
    (s.ask question).2.AtDesk d := by
  rw [Site.ask]
  exact (atDesk_notes (fun t : Tool => t.name ++ _) .tools .debug _ h).congr rfl rfl rfl rfl

/-- Taking a script leaves scripts that were there before. -/
theorem mem_of_mem_takeScript {program name : String} {scripts : List Script} {script : Script}
    (hp : (name, scripts) ∈ (s.takeScript program).2.scripts) (hscript : script ∈ scripts) :
    ∃ old, (name, old) ∈ s.scripts ∧ script ∈ old := by
  simp only [takeScript, List.mem_map, Prod.mk.injEq] at hp
  obtain ⟨⟨name', old⟩, hold, rfl, rfl⟩ := hp
  refine ⟨old, hold, ?_⟩
  split at hscript
  · exact List.mem_of_mem_tail hscript
  · exact hscript

theorem atDesk_takeScript (h : s.AtDesk d) (program : String) :
    (s.takeScript program).2.AtDesk d := by
  refine ⟨⟨h.attended.present, ?_, ?_, h.attended.answers⟩, h.desk⟩
  · rintro ⟨name, scripts⟩ hp script hscript
    obtain ⟨old, hold, hmem⟩ := mem_of_mem_takeScript hp hscript
    exact h.attended.starts _ hold script hmem
  · rintro ⟨name, scripts⟩ hp hname script hscript
    obtain ⟨old, hold, hmem⟩ := mem_of_mem_takeScript hp hscript
    exact h.attended.ends _ hold hname script hmem

/-- The script that is taken is one of the program, or that of a program of
which nothing is known. -/
theorem takeScript_cases (s : Site) (program : String) :
    (s.takeScript program).1 = {} ∨
      ∃ scripts, (program, scripts) ∈ s.scripts ∧ (s.takeScript program).1 ∈ scripts := by
  rw [takeScript]
  cases hlookup : s.scripts.lookup program with
  | none => exact Or.inl rfl
  | some scripts =>
    cases scripts with
    | nil => exact Or.inl rfl
    | cons script rest =>
      obtain ⟨before, after, hscripts, -⟩ := List.lookup_eq_some_iff.1 hlookup
      refine Or.inr ⟨script :: rest, ?_, List.mem_cons_self⟩
      rw [hscripts]
      exact List.mem_append_right _ List.mem_cons_self

end Site

/-! ## Programs -/

namespace Shell

variable {d : Desk}

/-- A program that was started is not waited for in vain. -/
def Awaitable (r : Request) (script : Script) (heeded : Bool) : Prop :=
  r.limit = none → script.Ends heeded

/-- Starting a program fails only in an ordinary way, and a program that was
started without a time limit ends. -/
theorem atDesk_launch {s : Site} (h : s.AtDesk d) {r : Request}
    (hr : r.limit = none → r.program ≠ Tool.textExtractor.name) :
    (launch r s).2.AtDesk d ∧ (∀ e, (launch r s).1 = .error e → e.IsOrdinary) ∧
      ∀ script, (launch r s).1 = .ok script →
        Awaitable r script (launch r s).2.signal.isSome := by
  have hnoted := Site.atDesk_note h .program .debug ("exec: " ++ " ".intercalate r.words)
  generalize hs : s.note .program .debug ("exec: " ++ " ".intercalate r.words) = noted at hnoted
  have htaken := Site.atDesk_takeScript hnoted r.program
  have hcases := Site.takeScript_cases noted r.program
  rw [launch, hs]
  rcases htake : noted.takeScript r.program with ⟨script, taken⟩
  rw [htake] at htaken hcases
  dsimp only
  have hcalled : Site.AtDesk d { taken with
      calls := taken.calls ++ [⟨r.words, 0⟩], book := taken.book.tick script.tick } :=
    htaken.congr rfl rfl rfl rfl
  split
  · rename_i e he
    refine ⟨hcalled, fun e' he' => ?_, fun script' hscript' => by cases hscript'⟩
    obtain rfl : e = e' := Except.error.inj he'
    rcases hcases with rfl | ⟨scripts, hp, hmem⟩
    · cases he
    · rintro rfl
      exact hnoted.attended.starts _ hp script hmem he
  · refine ⟨hcalled, fun e' he' => (by cases he'), fun script' hscript' hlimit => ?_⟩
    obtain rfl : script = script' := Except.ok.inj hscript'
    rcases hcases with rfl | ⟨scripts, hp, hmem⟩
    · intro hnever
      cases hnever
    · have hends := hnoted.attended.ends _ hp (hr hlimit) script hmem
      have hsignal : taken.signal = noted.signal := by
        rw [show taken = (noted.takeScript r.program).2 by rw [htake]]
        rfl
      show script.Ends taken.signal.isSome
      rw [hsignal]
      exact hends

theorem stopCause_eq_waiting_iff {limit fires : Option Float} :
    stopCause limit fires = .waiting ↔ limit = none ∧ fires = none := by
  cases limit with
  | none => cases fires <;> simp [stopCause]
  | some l =>
    cases fires with
    | none => simp [stopCause]
    | some f =>
      rw [stopCause]
      split <;> simp

/-- Only a program that never ends, and that nothing stops, leaves its
caller waiting. -/
theorem never_of_race_eq_waiting {ending : Ending} {limit fires : Option Float}
    (h : race ending limit fires = .waiting) : ending = .never ∧ limit = none ∧ fires = none := by
  cases ending with
  | atOnce => cases h
  | never => exact ⟨rfl, stopCause_eq_waiting_iff.1 h⟩
  | after t =>
    rw [race] at h
    split at h
    · cases h
    · rename_i hlate
      obtain ⟨rfl, rfl⟩ := stopCause_eq_waiting_iff.1 h
      simp at hlate

/-- The wait for a program comes to an end. -/
theorem courseOf_ne_waiting {s : Site} (h : s.abandoned = false) {r : Request} {script : Script}
    (hscript : Awaitable r script s.signal.isSome) : courseOf s r script ≠ .waiting := by
  have hcourse : courseOf s r script = script.outcome r.limit s.signal.isSome := by
    unfold courseOf
    rw [h]
  rw [hcourse]
  intro hwaiting
  obtain ⟨hnever, hlimit, hfires⟩ :=
    never_of_race_eq_waiting (Script.race_of_outcome hwaiting Outcome.noConfusion)
  obtain ⟨hheeded, hfiring⟩ := hscript hlimit hnever
  rw [if_pos hheeded, Script.fireTime, hfiring] at hfires
  cases hfires

theorem result_isOrdinary {script : Script} {r : Request} {e : Fault}
    (h : script.result r = .error e) : e.IsOrdinary := by
  rw [Script.result] at h
  split at h
  · cases h
  · obtain rfl := Except.error.inj h
    intro hfault
    cases hkind : r.failure with
    | tool => rw [hkind] at hfault; cases hfault
    | rasterize => rw [hkind] at hfault; cases hfault

theorem atDesk_await {s : Site} (h : s.AtDesk d) {r : Request} {script : Script}
    (hscript : Awaitable r script s.signal.isSome) :
    (await r script s).2.AtDesk d ∧ ∀ e, (await r script s).1 = .error e → e.IsOrdinary := by
  have hne := courseOf_ne_waiting h.attended.present hscript
  have hfired : ∀ fires, (s.fire fires).AtDesk d := by
    intro fires
    refine h.congr rfl rfl ?_ rfl
    rw [Site.fire, Option.isSome_map]
  have hstopped : ∀ fires, ((s.fire fires).stopLatest).AtDesk d :=
    fun fires => (hfired fires).congr rfl rfl rfl rfl
  rw [await_eq]
  cases hcourse : courseOf s r script with
  | ended => exact ⟨hfired _, fun e he => result_isOrdinary he⟩
  | cancelled =>
    refine ⟨hstopped _, fun e he => ?_⟩
    obtain rfl := Except.error.inj he
    exact Fault.noConfusion
  | timedOut =>
    refine ⟨hstopped _, fun e he => ?_⟩
    obtain rfl := Except.error.inj he
    exact Fault.noConfusion
  | waiting => exact absurd hcourse hne

theorem keeps_check : Keeps (Site.AtDesk d) Fault.IsOrdinary check := by
  intro s hs
  refine ⟨hs, fun e he => ?_⟩
  have hcheck : (if s.fired then .error .cancelled else .ok () : Except Fault Unit) = .error e := he
  split at hcheck
  · obtain rfl := Except.error.inj hcheck
    exact Fault.noConfusion
  · cases hcheck

/-- A program that is run ends, or it fails in an ordinary way. -/
theorem keeps_run {r : Request} (hr : r.limit = none → r.program ≠ Tool.textExtractor.name) :
    Keeps (Site.AtDesk d) Fault.IsOrdinary (run r) := by
  have hlaunch : Keeps (Site.AtDesk d) Fault.IsOrdinary (launch r) := fun s hs =>
    ⟨(atDesk_launch hs hr).1, (atDesk_launch hs hr).2.1⟩
  refine keeps_check.bind fun _ => hlaunch.bind_of fun s script t hs hrun => ?_
  obtain ⟨hkept, -, hscript⟩ := atDesk_launch hs hr
  rw [hrun] at hkept hscript
  exact atDesk_await hkept (hscript script rfl)

theorem keeps_ask {α : Type} (question : StateM Tools α) {E : Fault → Prop} :
    Keeps (Site.AtDesk d) E (ask question) := fun _ hs =>
  ⟨Site.atDesk_ask question hs, fun _ he => by cases he⟩

theorem keeps_note (source : Source) (level : Level) (text : String) :
    Keeps (Site.AtDesk d) Fault.IsOrdinary (note source level text) :=
  Keeps.change fun _ hs => Site.atDesk_note hs source level text

theorem keeps_report (f : Logbook → Logbook) {E : Fault → Prop} :
    Keeps (Site.AtDesk d) E (report f) :=
  Keeps.change fun _ hs => hs.congr rfl rfl rfl rfl

end Shell

/-! ## Layers -/

section Layers

variable {d : Desk}

theorem pageOf_isOrdinary {output : Text.Utf8.Bytes} {e : Fault}
    (h : PageReading.pageOf output = .error e) : e.IsOrdinary := by
  rw [PageReading.pageOf] at h
  split at h
  · cases h
  · obtain rfl := Except.error.inj h
    exact Fault.noConfusion

/-- The layers keep a site attended and fail only in an ordinary way. -/
theorem isInherited_keeps :
    Shell.IsInherited fun {α : Type} (x : Shell α) =>
      Shell.Keeps (Site.AtDesk d) Fault.IsOrdinary x where
  pure a := .pure a
  bind hx hf := hx.bind hf
  get := .get
  ask question := Shell.keeps_ask question
  note source level text := Shell.keeps_note source level text
  check := Shell.keeps_check
  run hr := Shell.keeps_run hr
  page output := by
    cases hpage : PageReading.pageOf output with
    | ok page => exact .pure page
    | error e => exact .throw (pageOf_isOrdinary hpage)
  skip hx hhandle := hx.tryCatch fun e he => .ite (hhandle e) (.throw he)

theorem keeps_extract (data : Text.Utf8.Bytes) (mime : String) (bound : Option Float) :
    Shell.Keeps (Site.AtDesk d) Fault.IsOrdinary (TextLayer.extract data mime bound) :=
  isInherited_keeps.extract data mime bound

theorem keeps_read (data : Text.Utf8.Bytes) (mime : String) (cap : Int) :
    Shell.Keeps (Site.AtDesk d) Fault.IsOrdinary (PageReading.read data mime cap) :=
  isInherited_keeps.read data mime cap

end Layers
end Intake
