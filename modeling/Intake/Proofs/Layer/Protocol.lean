import Intake.Proofs.Layer.Agreement

/-!
# The protocol of progress events

The events of a worker have a fixed shape, whatever its programs do and
whenever its cancellation fires.

There are four groups.

* Shapes.  `Progress.Earlier` says what can be told before the last event,
  `Progress.Concludes` what the last event can be.
* Plans.  `Plan.Obeys` says that a plan keeps to the protocol behind what was
  told already; `obeys_forDocument` is the result.
* Carrying on.  `Plan.Obeys.advance` is one step of a worker, and
  `Plan.advance_of_fired` what is left of it once the cancellation has fired.
* Termination.  `Stage.wellFounded_behind` says that a worker goes on only
  finitely often.
-/

namespace Intake

/-! ## Shapes -/

namespace Progress

/-- The events of a document of so many pages, up to the start of a page. -/
def paging (total page : Nat) : List Progress :=
  .rendered total :: (List.range page).map fun i => .started (i + 1) total

/-- What can be told before the last event: nothing, the one start of an
image, or the pages of any other document up to some page. -/
inductive Earlier : Bool → List Progress → Prop where
  | silent (image : Bool) : Earlier image []
  | picture : Earlier true [.started 1 1]
  | pages {total page : Nat} (htotal : 0 < total) (hpage : page ≤ total) :
      Earlier false (paging total page)

/-- An event can be the last one behind the events told before it. -/
structure Concludes (told : List Progress) (last : Progress) : Prop where
  done : last.done = true
  empty : last.fault ≠ none → last.text = "" ∧ last.table = ""
  whole : ∀ total page, told = paging total page → last.fault = none → page = total

/-- All events of a worker that has come to its end. -/
def Complete (image : Bool) (events : List Progress) : Prop :=
  ∃ told last, events = told ++ [last] ∧ Earlier image told ∧ Concludes told last

theorem paging_succ (total page : Nat) :
    paging total (page + 1) = paging total page ++ [.started (page + 1) total] := by
  simp [paging, List.range_succ]

theorem length_paging (total page : Nat) : (paging total page).length = page + 1 := by
  simp [paging]

theorem paging_injective {total page total' page' : Nat}
    (h : paging total page = paging total' page') : total = total' ∧ page = page' := by
  have hlength := congrArg List.length h
  rw [length_paging, length_paging] at hlength
  have hhead : rendered total = rendered total' := (List.cons.inj h).1
  exact ⟨congrArg Progress.total hhead, by omega⟩

theorem Earlier.not_done {image : Bool} {told : List Progress} (h : Earlier image told) :
    ∀ p ∈ told, p.done = false := by
  intro p hp
  cases h with
  | silent => exact absurd hp List.not_mem_nil
  | picture => rw [List.mem_singleton.1 hp]; rfl
  | pages htotal hpage =>
    rcases List.mem_cons.1 hp with rfl | hp
    · rfl
    · obtain ⟨i, -, rfl⟩ := List.mem_map.1 hp
      rfl

theorem take_paging (total page n : Nat) :
    (paging total page).take (n + 1) = paging total (min n page) := by
  simp [paging, ← List.map_take, List.take_range]

/-- A consumer that has not read all of it has read what can be told as
well. -/
theorem Earlier.take {image : Bool} {told : List Progress} (h : Earlier image told) (n : Nat) :
    Earlier image (told.take n) := by
  cases n with
  | zero => exact .silent image
  | succ n =>
    cases h with
    | silent => exact .silent image
    | picture => rw [List.take_of_length_le (Nat.succ_le_succ (Nat.zero_le n))]; exact .picture
    | pages htotal hpage =>
      rw [take_paging]
      exact .pages htotal (le_trans (Nat.min_le_right _ _) hpage)

theorem Earlier.of_append {image : Bool} {read later : List Progress}
    (h : Earlier image (read ++ later)) : Earlier image read := by
  have htake := h.take read.length
  rwa [List.take_left'] at htake
  rfl

theorem concludes_failed (told : List Progress) (e : Fault) : Concludes told (.failed e) :=
  ⟨rfl, fun _ => ⟨rfl, rfl⟩, fun _ _ _ hfault => absurd hfault (Option.some_ne_none e)⟩

/-- A result can be the last event where no page is missing. -/
theorem concludes_result {told : List Progress} (page : Page)
    (h : ∀ total page, told = paging total page → page = total) :
    Concludes told (.result page) :=
  ⟨rfl, fun hfault => absurd rfl hfault, fun total page htold _ => h total page htold⟩

theorem Complete.of_earlier {image : Bool} {told : List Progress} {last : Progress}
    (htold : Earlier image told) (hlast : Concludes told last) :
    Complete image (told ++ [last]) := ⟨told, last, rfl, htold, hlast⟩

theorem Complete.done_of_append {image : Bool} {told : List Progress} {last : Progress}
    (h : Complete image (told ++ [last])) : last.done = true := by
  obtain ⟨earlier, p, hevents, -, hlast⟩ := h
  obtain ⟨-, hp⟩ := List.append_inj' hevents rfl
  rw [List.singleton_inj.1 hp]
  exact hlast.done

/-- Exactly one of all the events is a last event, and it comes last. -/
theorem Complete.filter_done {image : Bool} {events : List Progress} (h : Complete image events) :
    ∃ last, events.filter done = [last] ∧ events.getLast? = some last := by
  obtain ⟨told, last, rfl, htold, hlast⟩ := h
  refine ⟨last, ?_, List.getLast?_concat⟩
  have hnone : told.filter done = [] :=
    List.filter_eq_nil_iff.2 fun p hp => by rw [htold.not_done p hp]; exact Bool.false_ne_true
  rw [List.filter_append, hnone, List.nil_append, List.filter_singleton, hlast.done]
  rfl

/-- Of all the events of a worker, a consumer has read some that come before
the last one, or all. -/
theorem Complete.of_append {image : Bool} {read later : List Progress}
    (h : Complete image (read ++ later)) :
    later = [] ∧ Complete image read ∨ Earlier image read := by
  obtain ⟨told, last, hevents, htold, hlast⟩ := h
  rcases List.eq_nil_or_concat' later with rfl | ⟨earlier, p, rfl⟩
  · rw [List.append_nil] at hevents
    exact Or.inl ⟨rfl, told, last, hevents, htold, hlast⟩
  · rw [← List.append_assoc] at hevents
    obtain ⟨rfl, -⟩ := List.append_inj' hevents rfl
    exact Or.inr htold.of_append

end Progress

/-! ## Plans -/

/-- Behind these events, a plan keeps to the protocol however its programs
end. -/
inductive Plan.Obeys (image : Bool) : List Progress → Plan → Prop where
  | finish {told : List Progress} {last : Progress} (h : Progress.Concludes told last) :
      Obeys image told (.finish last)
  | emit {told : List Progress} {p : Progress} {next : Plan}
      (hp : Progress.Earlier image (told ++ [p])) (h : Obeys image (told ++ [p]) next) :
      Obeys image told (.emit p next)
  | note {told : List Progress} {level : Level} {text : String} {next : Plan}
      (h : Obeys image told next) : Obeys image told (.note level text next)
  | run {told : List Progress} {r : Request} {next : Except Fault Yield → Plan}
      (h : ∀ ended, Obeys image told (next ended)) : Obeys image told (.run r next)

namespace Plan

open Progress

variable {image : Bool} {told : List Progress}

theorem obeys_stop (e : Fault) : (stop e).Obeys image told :=
  .note (.finish (concludes_failed told e))

/-- The induction is on the images that are left: together with the pages
before them they are all pages there are. -/
theorem obeys_readImages {total : Nat} (htotal : 0 < total) (images : List String) :
    ∀ (page : Nat) (held : List Page), page + images.length = total →
      (readImages total (page + 1) held images).Obeys false (paging total page) := by
  induction images with
  | nil =>
    intro page held hpages
    refine .finish (concludes_result _ fun total' page' hpaging => ?_)
    obtain ⟨rfl, rfl⟩ := paging_injective hpaging
    simpa using hpages
  | cons image rest ih =>
    intro page held hpages
    rw [List.length_cons] at hpages
    have hrest := fun held => ih (page + 1) held (by omega)
    rw [paging_succ] at hrest
    refine .emit ?_ (.run fun ended => ?_)
    · rw [← paging_succ]
      exact .pages htotal (by omega)
    · cases ended.bind fun made => PageReading.pageOf made.output with
      | ok read => exact hrest _
      | error e =>
        dsimp only
        split_ifs
        · exact .note (hrest held)
        · exact obeys_stop e

theorem nil_ne_paging (total page : Nat) : [] ≠ paging total page := nofun

theorem obeys_finish_empty (page : Page) : (finish (.result page)).Obeys image [] :=
  .finish (concludes_result page fun _ _ hpaging => absurd hpaging (nil_ne_paging _ _))

theorem obeys_readPdf (folder : String) (cap : Int) : (readPdf folder cap).Obeys false [] := by
  refine .run fun ended => ?_
  cases ended with
  | error e => exact obeys_stop e
  | ok made =>
    dsimp only
    cases PageReading.images folder made.files with
    | nil => exact obeys_finish_empty {}
    | cons image rest =>
      have htotal : 0 < (image :: rest).length := Nat.succ_pos _
      refine .emit ?_ ?_
      · exact .pages htotal (Nat.zero_le _)
      · exact obeys_readImages htotal _ 0 [] (Nat.zero_add _)

theorem obeys_readPicture (folder : String) : (readPicture folder).Obeys true [] := by
  refine .emit .picture (.run fun ended => ?_)
  cases ended.bind fun made => PageReading.pageOf made.output with
  | error e => exact obeys_stop e
  | ok read =>
    -- The one start of an image is no event of a document with pages.
    refine .finish (concludes_result _ fun total page hpaging => ?_)
    have hhead : started 1 1 = rendered total := (List.cons.inj hpaging).1
    exact absurd (congrArg Progress.phase hhead) Phase.noConfusion

/-- The plan for a document keeps to the protocol. -/
theorem obeys_forDocument (folder : String) (data : Text.Utf8.Bytes) (mime : String) (cap : Int) :
    (forDocument folder data mime cap).Obeys (Mime.isImage mime) [] := by
  rw [forDocument]
  split_ifs with hdata himage
  · exact obeys_finish_empty {}
  · rw [himage]
    exact obeys_readPicture folder
  · rw [Bool.not_eq_true] at himage
    rw [himage]
    exact obeys_readPdf folder _

/-- Carried out at once, a plan that keeps to the protocol gives all its
events. -/
theorem Obeys.complete {plan : Plan} (h : plan.Obeys image told) (htold : Earlier image told)
    (t : Site) : Complete image (told ++ (plan.complete t).1) := by
  induction h generalizing t with
  | finish hlast => exact .of_earlier htold hlast
  | @emit told p next hp _ ih =>
    simp only [Plan.complete]
    split_ifs
    · exact .of_earlier htold (concludes_failed told _)
    · have hnext := ih hp t
      rwa [List.append_assoc] at hnext
  | note _ ih => exact ih htold _
  | run _ ih => exact ih _ htold _

/-- Once the cancellation has fired, what is left of a plan is one event and no
program. -/
theorem complete_of_fired (plan : Plan) {t : Site} (h : t.fired = true) :
    (∃ last, (plan.complete t).1 = [last]) ∧ (plan.complete t).2.calls = t.calls := by
  induction plan generalizing t with
  | finish last => exact ⟨⟨last, rfl⟩, rfl⟩
  | emit p next ih =>
    simp only [Plan.complete]
    rw [if_pos h]
    exact ⟨⟨_, rfl⟩, rfl⟩
  | note level text next ih => exact ih h
  | run r next ih =>
    have hrun := Shell.run_of_fired r (eq_of_beq h)
    simp only [Plan.complete]
    rw [hrun]
    exact ih _ h

end Plan

/-! ## Carrying on -/

/-- A worker that has stopped for the moment has kept to the protocol, and
will. -/
def Stage.Obeys (image : Bool) (told : List Progress) : Stage → Prop
  | .over => Progress.Complete image told
  | .waits _ _ _ next => Progress.Earlier image told ∧ ∀ ended, (next ended).Obeys image told

namespace Plan

open Progress

variable {image : Bool} {told : List Progress}

theorem advance_run_of_fired (r : Request) (next : Except Fault Yield → Plan) (waits : Bool)
    (t : Site) :
    (run r next).advance true waits t = (next (.error .cancelled)).advance true waits t := by
  simp only [advance, if_true]

theorem Obeys.advance {plan : Plan} (h : plan.Obeys image told) (htold : Earlier image told)
    (fired waits : Bool) (t : Site) :
    (plan.advance fired waits t).1.2.Obeys image (told ++ (plan.advance fired waits t).1.1) := by
  induction h generalizing t with
  | finish hlast => exact .of_earlier htold hlast
  | @emit told p next hp _ ih =>
    simp only [Plan.advance]
    split_ifs
    · exact .of_earlier htold (concludes_failed told _)
    · have hnext := ih hp t
      rwa [List.append_assoc] at hnext
  | note _ ih => exact ih htold _
  | @run told r next hnext ih =>
    cases fired with
    | true =>
      rw [advance_run_of_fired]
      exact ih _ htold t
    | false =>
      rcases advance_run_cases r next waits t with hgoes | ⟨-, call, hwaits⟩
      · rw [hgoes]
        exact ih _ htold _
      · rw [hwaits, List.append_nil]
        exact ⟨htold, hnext⟩

/-- Once the cancellation has fired, a worker comes to its end with one event
and without a program. -/
theorem advance_of_fired (plan : Plan) (waits : Bool) (t : Site) :
    (plan.advance true waits t).1.2 = .over ∧
      (∃ last, (plan.advance true waits t).1.1 = [last]) ∧
      (plan.advance true waits t).2.calls = t.calls := by
  induction plan generalizing t with
  | finish last => exact ⟨rfl, ⟨last, rfl⟩, rfl⟩
  | emit p next ih => exact ⟨rfl, ⟨_, rfl⟩, rfl⟩
  | note level text next ih => exact ih (t.note .progress level text)
  | run r next ih =>
    rw [advance_run_of_fired]
    exact ih (.error .cancelled) t

end Plan

/-! ## Termination -/

/-- A stage that a worker comes to behind a stage it has stopped at. -/
def Stage.Behind (later earlier : Stage) : Prop :=
  ∃ r script call next, earlier = .waits r script call next ∧
    ∃ ended fired waits t, later = ((next ended).advance fired waits t).1.2

theorem Plan.acc_advance (plan : Plan) :
    ∀ (fired waits : Bool) (t : Site),
      Acc Stage.Behind (plan.advance fired waits t).1.2 := by
  have hover : Acc Stage.Behind .over :=
    .intro _ fun _ ⟨_, _, _, _, hstage, _⟩ => Stage.noConfusion hstage
  induction plan with
  | finish last => exact fun fired waits t => hover
  | emit p next ih =>
    intro fired waits t
    simp only [Plan.advance]
    split_ifs
    · exact hover
    · exact ih fired waits t
  | note level text next ih => exact fun fired waits t => ih fired waits _
  | run r next ih =>
    intro fired waits t
    cases fired with
    | true =>
      rw [Plan.advance_run_of_fired]
      exact ih _ true waits t
    | false =>
      rcases Plan.advance_run_cases r next waits t with hgoes | ⟨-, call, hwaits⟩
      · rw [hgoes]
        exact ih _ false waits _
      · rw [hwaits]
        refine .intro _ ?_
        rintro _ ⟨_, _, _, _, hstage, ended, fired, waits, t, rfl⟩
        cases hstage
        exact ih ended fired waits t

/-- A worker goes on only finitely often. -/
theorem Stage.wellFounded_behind : WellFounded Stage.Behind := by
  refine ⟨fun stage => .intro _ ?_⟩
  rintro _ ⟨r, script, call, next, -, ended, fired, waits, t, rfl⟩
  exact Plan.acc_advance (next ended) fired waits t

end Intake
