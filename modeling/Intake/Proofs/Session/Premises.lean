import Intake.Proofs.Layer.Owed
import Intake.Proofs.Program.Courses
import Intake.Proofs.Session.Chronicle
import Mathlib.Logic.Function.Iterate

/-!
# Premises

A workshop and the loop that carries out its commands, as one system.  Keys
are pressed, commands are carried on, deliveries are handled, workers get on,
and time passes, in any order.

There are three groups.

* Runs.  `Premises.Step` is everything that can happen; `sound_of_reaches`
  says that the premises stay sound.
* Sites.  What a step does to the site beside the programs that workers run:
  `Site.Rests` holds of every turn at the workbench, and no worker asks a
  model.
* Requests.  `requests_proceed` says that the model is asked only by the
  command for it.
-/

namespace Intake

/-- A workshop and the loop that carries out its commands. -/
structure Premises where
  shop : Workshop
  loop : Loop Delivery Task := {}

namespace Premises

/-! ## Runs -/

/-- The workbench and the loop of the premises. -/
def office (p : Premises) : Office := ⟨p.shop.bench, p.loop⟩

/-- The premises after some work in the workshop; the command it gives is
dispatched. -/
def after (p : Premises) (work : StateM Workshop (Except Fault (Option Command))) : Premises where
  shop := (work p.shop).2
  loop := (p.office.after (p.shop.turnOf work)).loop

/-- The premises without a delivery that waits. -/
def without (p : Premises) (i : Nat) : Premises :=
  { p with loop := { p.loop with queue := p.loop.queue.eraseIdx i } }

/-- The premises after a task was carried on. -/
def carry (p : Premises) (i : Nat) (task : Task) : Premises where
  shop := (Workshop.proceed task p.shop).2
  loop := (p.office.carry i (Workshop.proceed task p.shop)).loop

/-- What happens on the premises.  The workers get on by one program each,
or they wait for the one that ends first. -/
inductive Step (p : Premises) : Premises → Prop where
  | presses (k : Key) : Step p { p with loop := p.loop.send (.key k) }
  | carries {i : Nat} {task : Task} (htask : p.loop.running[i]? = some task) :
      Step p (p.carry i task)
  | handles {i : Nat} {d : Delivery} (hd : p.loop.queue[i]? = some d) :
      Step p ((p.without i).after (Workshop.handle d))
  | strides : Step p { p with shop := (Workshop.stride p.shop).2 }
  | passes : Step p { p with shop := (Workshop.pass p.shop).2 }
  | settles : Step p { p with shop := (Workshop.settle p.shop).2 }
  | ticks (seconds : Float) : Step p { p with
      shop := { p.shop with
        site := { p.shop.site with book := p.shop.site.book.tick seconds } } }

/-- Premises that a run from the given ones reaches. -/
def Reaches : Premises → Premises → Prop := Relation.ReflTransGen Step

variable {p q : Premises}

/-- The premises after the loop has done the next thing: it handles the
delivery that has waited longest, or else it carries its oldest task on. -/
def next (p : Premises) : Premises :=
  match p.loop.queue, p.loop.running with
  | d :: _, _ => (p.without 0).after (Workshop.handle d)
  | [], task :: _ => p.carry 0 task
  | [], [] => p

theorem reaches_next (p : Premises) : p.Reaches p.next := by
  rw [next]
  split
  · rename_i hqueue
    exact .single (.handles (by rw [hqueue]; rfl))
  · rename_i hrunning
    exact .single (.carries (by rw [hrunning]; rfl))
  · exact .refl

theorem reaches_iterate_next (n : Nat) (p : Premises) : p.Reaches (next^[n] p) := by
  induction n generalizing p with
  | zero => exact .refl
  | succ n ih => exact (reaches_next p).trans (ih p.next)

theorem bench_closeStreams (s : Workshop) : (Workshop.closeStreams s).2.bench = s.bench := by
  have hclose : ∀ (t : Workshop) (i : Nat), (t.closeStream i).bench = t.bench := by
    intro t i
    rw [Workshop.closeStream]
    split
    · rfl
    · dsimp only
      split
      · rfl
      · rfl
  have hall : ∀ (streams : List Nat) (t : Workshop),
      (streams.foldl Workshop.closeStream t).bench = t.bench := by
    intro streams
    induction streams with
    | nil => exact fun t => rfl
    | cons i rest ih => exact fun t => (ih (t.closeStream i)).trans (hclose t i)
  exact hall _ s

theorem bench_pass (s : Workshop) : (Workshop.pass s).2.bench = s.bench := by
  rw [Workshop.pass]
  split
  · rfl
  · split
    · rfl
    · rfl

/-- A step is a move of the office, or the office stays as it is. -/
theorem move_of_step (h : Step p q) : q.office = p.office ∨ ∃ e, Office.Move p.office e q.office := by
  cases h with
  | presses k => exact Or.inr ⟨_, .presses k⟩
  | carries htask => exact Or.inr ⟨_, .carries p.shop htask rfl⟩
  | handles hd => exact Or.inr ⟨_, .handles p.shop.site.book.clock hd⟩
  | strides => exact Or.inl rfl
  | passes =>
    refine Or.inl ?_
    rw [office, bench_pass]
    rfl
  | settles =>
    refine Or.inl ?_
    show (⟨(Workshop.closeStreams (Workshop.haltFired p.shop).2).2.bench, p.loop⟩ : Office) = _
    rw [bench_closeStreams]
    rfl
  | ticks seconds => exact Or.inl rfl

theorem sound_step (h : p.office.Sound False) (hstep : Step p q) : q.office.Sound False := by
  rcases move_of_step hstep with heq | ⟨e, hmove⟩
  · rw [heq]
    exact h
  · exact Office.sound_move h hmove

end Premises

/-! ## Sites -/

namespace Plan

/-- A plan that is carried on asks no model. -/
theorem desk_advance (plan : Plan) (fired waits : Bool) (s : Site) :
    (plan.advance fired waits s).2.desk = s.desk := by
  induction plan generalizing s with
  | finish last => rfl
  | emit p next ih =>
    simp only [advance]
    split_ifs
    · rfl
    · exact ih s
  | note level text next ih => exact ih (s.note .progress level text)
  | run r next ih =>
    have hlaunched : (s.launched r).desk = s.desk := by rw [Site.launched_eq]
    rw [advance_run]
    split_ifs
    · exact ih _ s
    · cases (s.takeScript r.program).1.startFault with
      | some e => exact (ih _ _).trans hlaunched
      | none =>
        dsimp only
        split
        · exact (ih _ _).trans hlaunched
        · exact hlaunched

end Plan

namespace Worker

variable (w : Worker) (now : Float) (s : Site)

theorem desk_carryOn (fired waits : Bool) (plan : Plan) :
    (w.carryOn now fired waits plan s).2.desk = s.desk := plan.desk_advance fired waits s

theorem desk_resume (waits : Bool) : (w.resume now waits s).2.desk = s.desk := by
  rw [resume]
  cases w.stage with
  | «over» => rfl
  | waits r script call next => exact desk_carryOn w now s false waits _

theorem desk_halt : (w.halt now s).2.desk = s.desk := by
  rw [halt]
  cases w.stage with
  | «over» => rfl
  | waits r script call next => exact desk_carryOn w now (s.stopCall call) true false _

end Worker

namespace Site

theorem tools_records (records : List Record) (s : Site) :
    (records.foldl (fun (site : Site) r => site.note r.source r.level r.text) s).tools =
      s.tools := by
  induction records generalizing s with
  | nil => rfl
  | cons r rest ih => exact ih (s.note r.source r.level r.text)

end Site

namespace Workshop

variable {s : Workshop}

theorem desk_eachWorker {f : Worker → StateM Site Worker}
    (hf : ∀ w site, (f w site).2.desk = site.desk) (s : Workshop) :
    (eachWorker f s).2.site.desk = s.site.desk := by
  have hall : ∀ (workers : List Worker) (site : Site),
      ((workers.mapM f).run site).2.desk = site.desk := by
    intro workers
    induction workers with
    | nil => exact fun site => rfl
    | cons w rest ih =>
      intro site
      rw [List.mapM_cons]
      exact (ih (f w site).2).trans (hf w site)
  exact hall s.workers s.site

/-- Workers that are over are left as they are. -/
theorem eachWorker_of_fixed {f : Worker → StateM Site Worker} {fixed : List Worker}
    (hf : ∀ v ∈ fixed, ∀ site, f v site = (v, site)) (rest : List Worker) (site : Site) :
    (fixed ++ rest).mapM f site = ((fixed ++ (rest.mapM f site).1), (rest.mapM f site).2) := by
  induction fixed with
  | nil => rfl
  | cons v fixed ih =>
    obtain ⟨hv, hfixed⟩ := List.forall_mem_cons.1 hf
    rw [List.cons_append, List.mapM_cons]
    simp only [bind, StateT.bind, hv, ih hfixed]
    rfl

/-- Only the worker that was started last is changed where the others are
over. -/
theorem eachWorker_last {f : Worker → StateM Site Worker} {earlier : List Worker} {w : Worker}
    (h : s.workers = earlier ++ [w]) (hf : ∀ v ∈ earlier, ∀ site, f v site = (v, site)) :
    (eachWorker f s).2 =
      { s with workers := earlier ++ [(f w s.site).1], site := (f w s.site).2 } := by
  have hlast : [w].mapM f s.site = ([(f w s.site).1], (f w s.site).2) := by
    rw [List.mapM_cons]
    rfl
  have hall := eachWorker_of_fixed hf [w] s.site
  rw [hlast] at hall
  rw [eachWorker, h]
  show ({ s with workers := ((earlier ++ [w]).mapM f s.site).1,
                 site := ((earlier ++ [w]).mapM f s.site).2 } : Workshop) = _
  rw [hall]

theorem eachWorker_idle {f : Worker → StateM Site Worker}
    (hf : ∀ v ∈ s.workers, ∀ site, f v site = (v, site)) : (eachWorker f s).2 = s := by
  have hall := eachWorker_of_fixed hf [] s.site
  rw [List.append_nil] at hall
  rw [eachWorker]
  show ({ s with workers := (s.workers.mapM f s.site).1,
                 site := (s.workers.mapM f s.site).2 } : Workshop) = s
  rw [hall]
  show ({ s with workers := s.workers ++ [], site := s.site } : Workshop) = s
  rw [List.append_nil]

/-- What is done at the workbench leaves records and nothing else. -/
theorem rests_work {α : Type} (f : Float → Workbench → Workbench × α) (s : Workshop) :
    (work f s).2 = { s with bench := (f s.site.book.clock s.bench).1, site := (work f s).2.site } ∧
      s.site.Rests (work f s).2.site :=
  ⟨rfl, Site.rests_records (fun r => r) _ s.site⟩

/-- A turn at the workbench leaves records and nothing else. -/
theorem rests_handle (d : Delivery) (s : Workshop) :
    (handle d s).2 = { s with bench := (s.bench.handle s.site.book.clock d).bench,
                              site := (handle d s).2.site } ∧
      s.site.Rests (handle d s).2.site :=
  rests_work _ s

theorem rests_closeStreams (s : Workshop) : (closeStreams s).2.workers = s.workers ∧
    (closeStreams s).2.startFault = s.startFault ∧ s.site.Rests (closeStreams s).2.site := by
  have hclose : ∀ (t : Workshop) (i : Nat), (t.closeStream i).workers = t.workers ∧
      (t.closeStream i).startFault = t.startFault ∧ t.site.Rests (t.closeStream i).site := by
    intro t i
    rw [closeStream]
    split
    · exact ⟨rfl, rfl, .rfl⟩
    · dsimp only
      split
      · exact ⟨rfl, rfl, rfl, rfl, rfl, rfl, rfl, rfl⟩
      · exact ⟨rfl, rfl, .rfl⟩
  have hall : ∀ (streams : List Nat) (t : Workshop),
      (streams.foldl closeStream t).workers = t.workers ∧
        (streams.foldl closeStream t).startFault = t.startFault ∧
        t.site.Rests (streams.foldl closeStream t).site := by
    intro streams
    induction streams with
    | nil => exact fun t => ⟨rfl, rfl, .rfl⟩
    | cons i rest ih =>
      intro t
      obtain ⟨hworkers, hstart, hrests⟩ := hclose t i
      obtain ⟨hworkers', hstart', hrests'⟩ := ih (t.closeStream i)
      exact ⟨hworkers'.trans hworkers, hstart'.trans hstart, hrests.trans hrests'⟩
  exact hall _ s

/-! ## Requests -/

end Workshop

/-- The messages of a request. -/
def ChatRequest.messages : ChatRequest → List Message
  | complete _ messages => messages
  | stream _ messages => messages
  | plain messages => messages

namespace Workshop

theorem requests_openStream (d : Desk) (client : ChatClient) (messages : List Message) :
    ∃ r : ChatRequest, r.messages = messages ∧
      (d.openStream client messages).2.2.requests = d.requests ++ [r] := by
  rw [Desk.openStream]
  split
  · dsimp only
    split
    · exact ⟨.plain messages, rfl, rfl⟩
    · exact ⟨.plain messages, rfl, rfl⟩
  · exact ⟨.stream client.model messages, rfl, rfl⟩

theorem requests_openReply (s : Workshop) (owner : Nat) (client : ChatClient)
    (messages : List Message) : ∃ r : ChatRequest, r.messages = messages ∧
      (openReply owner client messages s).2.site.desk.requests = s.site.desk.requests ++ [r] := by
  obtain ⟨r, hr, hrequests⟩ := requests_openStream s.site.desk client messages
  refine ⟨r, hr, ?_⟩
  rw [← hrequests, openReply]
  rcases s.site.desk.openStream client messages with ⟨answer, seconds, desk⟩
  cases answer with
  | ok stream => rfl
  | error e => rfl

theorem site_readProgress (s : Workshop) (owner stream : Nat) :
    (readProgress owner stream s).2.site = s.site := by
  rw [readProgress]
  split
  · rfl
  · dsimp only
    split
    · rfl
    · rfl

theorem desk_noteBroken (stream : ChatStream) (read : StreamRead) (site : Site) :
    (noteBroken stream read site).desk = site.desk := by
  unfold noteBroken
  split
  · rfl
  · rfl

theorem desk_readChunk (s : Workshop) (owner stream : Nat) :
    (readChunk owner stream s).2.site.desk = s.site.desk := by
  rw [readChunk]
  split
  · rfl
  · rename_i chat hchat
    dsimp only
    cases chat.read.1 with
    | waiting => exact desk_noteBroken _ _ _
    | chunk c => exact desk_noteBroken _ _ _
    | exhausted => exact desk_noteBroken _ _ _
    | failed e => exact desk_noteBroken _ _ _

theorem desk_poll (s : Workshop) (c : Command) : (poll c s).2.site.desk = s.site.desk := by
  cases c with
  | readPages owner data mime cap => rfl
  | openReply owner client messages => rfl
  | awaitProgress owner stream =>
    cases stream with
    | none => rfl
    | some stream =>
      rw [poll_awaitProgress]
      split
      · rfl
      · exact congrArg Site.desk (site_readProgress s owner stream)
  | awaitChunk owner stream =>
    cases stream with
    | none => rfl
    | some stream =>
      rw [poll_awaitChunk]
      split
      · rfl
      · exact desk_readChunk s owner stream

/-- Carrying a task on asks the model once when it is for that, and not at all
otherwise. -/
theorem requests_proceed (s : Workshop) (task : Task) :
    (proceed task s).2.site.desk.requests = s.site.desk.requests ∨
      ∃ owner client messages, task = .fresh (.openReply owner client messages) ∧
        ∃ r : ChatRequest, r.messages = messages ∧
          (proceed task s).2.site.desk.requests = s.site.desk.requests ++ [r] := by
  cases task with
  | ended d => exact Or.inl rfl
  | waiting c => exact Or.inl (congrArg Desk.requests (desk_poll s c))
  | fresh c =>
    cases c with
    | readPages owner data mime cap =>
      refine Or.inl ?_
      show (begin _ s).2.site.desk.requests = _
      rw [begin_readPages]
      split
      · rfl
      · rw [desk_poll]
        exact congrArg Desk.requests (Plan.desk_advance _ _ _ s.site)
    | openReply owner client messages =>
      show (((if s.hasFired owner then _ else _ : StateM Workshop Task) s).2.site.desk.requests = _) ∨
        ∃ owner client messages, _ ∧ ∃ r : ChatRequest, _ ∧
          ((if s.hasFired _ then _ else _ : StateM Workshop Task) s).2.site.desk.requests = _
      split
      · exact Or.inl rfl
      · exact Or.inr ⟨owner, client, messages, rfl, requests_openReply s owner client messages⟩
    | awaitProgress owner stream => exact Or.inl (congrArg Desk.requests (desk_poll s _))
    | awaitChunk owner stream => exact Or.inl (congrArg Desk.requests (desk_poll s _))

end Workshop
end Intake
