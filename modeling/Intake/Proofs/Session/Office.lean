import Intake.Loop.Basic
import Intake.Proofs.Session.Carrying
import Mathlib.Data.List.Perm.Basic
import Mathlib.Logic.Relation

/-!
# Offices

A workbench and the loop that carries out its commands.  Documents are
opened, keys are pressed, commands are carried on and what they delivered
is handled, in any order.

There are three groups.

* Runs.  `Office.Step` handles what was delivered in any order, each
  delivery once; `Office.LoopStep` handles it in the order in which it
  arrived.  `step_of_loopStep` says that the second is a case of the first.
* Work under way.  `Office.inFlight` counts the commands of a session that
  run and its deliveries that wait; `Office.items` lists both.
* Moves.  What each move does to the work under way, up to its order.
-/

namespace Intake

/-- A workbench and the loop that carries out its commands. -/
structure Office where
  bench : Workbench
  loop : Loop Delivery Task := {}

namespace Office

/-! ## Runs -/

/-- An office in which nothing has happened yet. -/
def start (store : Option Store) (client : Option ChatClient) (settings : Settings)
    (capabilities : Capabilities) : Office where
  bench := { store := store, client := client, settings := settings, capabilities := capabilities }

/-- The office after a turn; the command of the turn is dispatched. -/
def after (o : Office) (t : Turn) : Office where
  bench := t.bench
  loop := o.loop.dispatch (t.command?.map .fresh)

/-- The office after a task was carried on; when it has ended, what it
delivers is posted. -/
def carry (o : Office) (i : Nat) (r : Task × Workshop) : Office where
  bench := r.2.bench
  loop := match r.1 with
    | .ended d => o.loop.finish i d
    | .fresh c => { o.loop with running := o.loop.running.set i (.fresh c) }
    | .waiting c => { o.loop with running := o.loop.running.set i (.waiting c) }

/-- The office without a delivery that waits. -/
def without (o : Office) (i : Nat) : Office :=
  { o with loop := { o.loop with queue := o.loop.queue.eraseIdx i } }

/-- What a loop does with a delivery. -/
def update (now : Float) : Loop.Update Workbench Delivery Task := fun w d =>
  ((w.handle now d).bench, (w.handle now d).command?.map .fresh)

/-- What happens in an office beside the handling of deliveries.  A task
may be carried on in any workshop whose workers and streams are as `site`
says. -/
inductive Activity (site : Workshop → Prop) (o : Office) : Office → Prop where
  | opens (now : Float) (document : Int) (filename : String) (data : Text.Utf8.Bytes)
      (mime text : String) :
      Activity site o (o.after (o.bench.open now document filename data mime text))
  | presses (k : Key) : Activity site o { o with loop := o.loop.send (.key k) }
  | carries {i : Nat} {task : Task} (s : Workshop) (htask : o.loop.running[i]? = some task)
      (hbench : s.bench = o.bench) (hsite : site s) :
      Activity site o (o.carry i (Workshop.proceed task s))

/-- One step of an office: an activity, or some delivery that waits is
handled.  Every command is carried out once and what it delivers is handled
at most once. -/
inductive Step (site : Workshop → Prop) (o : Office) : Office → Prop where
  | acts {o' : Office} (h : Activity site o o') : Step site o o'
  | handles {i : Nat} {d : Delivery} (now : Float) (hd : o.loop.queue[i]? = some d)
      (htame : o.bench.Tame d) : Step site o ((o.without i).after (o.bench.handle now d))

/-- One step of an office whose loop handles deliveries in their order. -/
inductive LoopStep (site : Workshop → Prop) (o : Office) : Office → Prop where
  | acts {o' : Office} (h : Activity site o o') : LoopStep site o o'
  | handles {d : Delivery} {w : Workbench} {l : Loop Delivery Task} (now : Float)
      (hstep : Loop.step (update now) o.bench o.loop = some (d, w, l))
      (htame : o.bench.Tame d) : LoopStep site o ⟨w, l⟩

/-- An office that a run from the given one reaches. -/
def Reaches (step : Office → Office → Prop) (o o' : Office) : Prop :=
  Relation.ReflTransGen step o o'

theorem step_of_loopStep {site : Workshop → Prop} {o o' : Office} (h : LoopStep site o o') :
    Step site o o' := by
  cases h with
  | acts h => exact .acts h
  | @handles d w l now hstep htame =>
    obtain ⟨rest, hqueue, rfl, rfl⟩ := Loop.step_eq_some.1 hstep
    have hhead : o.loop.queue[0]? = some d := by rw [hqueue, List.getElem?_cons_zero]
    have hrest : o.loop.queue.eraseIdx 0 = rest := by rw [hqueue, List.eraseIdx_cons_zero]
    have hnext : Step site o ((o.without 0).after (o.bench.handle now d)) :=
      .handles now hhead htame
    rw [after, without, hrest] at hnext
    exact hnext

theorem reaches_of_loopReaches {site : Workshop → Prop} {o o' : Office}
    (h : Reaches (LoopStep site) o o') : Reaches (Step site) o o' :=
  Relation.ReflTransGen.mono (fun _ _ h => step_of_loopStep h) _ _ h

/-! ## Work under way -/

/-- The commands of a session that run and its deliveries that wait. -/
def inFlight (o : Office) (number : Nat) : Nat :=
  o.loop.running.countP (fun task => task.owner? = some number) +
    o.loop.queue.countP (fun d => d.owner? = some number)

/-- All that is under way; a delivery that waits counts as a task that has
ended. -/
def items (o : Office) : List Task :=
  o.loop.running ++ o.loop.queue.map fun d => .ended (some d)

theorem inFlight_eq_countP (o : Office) (number : Nat) :
    o.inFlight number = o.items.countP fun task => task.owner? = some number := by
  rw [items, List.countP_append, List.countP_map]
  rfl

/-! ## Moves -/

theorem items_after (o : Office) (t : Turn) :
    (o.after t).items.Perm ((t.command?.map Task.fresh).toList ++ o.items) := by
  show ((o.loop.running ++ (t.command?.map Task.fresh).toList) ++ _).Perm _
  rw [List.append_assoc]
  exact List.perm_append_comm_assoc _ _ _

theorem items_send (o : Office) (d : Delivery) :
    Office.items { o with loop := o.loop.send d } = o.items ++ [.ended (some d)] := by
  show o.loop.running ++ (o.loop.queue ++ [d]).map _ = _
  rw [List.map_append, ← List.append_assoc]
  rfl

theorem items_without {o : Office} {i : Nat} {d : Delivery} (hd : o.loop.queue[i]? = some d) :
    o.items.Perm (.ended (some d) :: (o.without i).items) := by
  obtain ⟨hi, rfl⟩ := List.getElem?_eq_some_iff.1 hd
  have hqueue := (List.getElem_cons_eraseIdx_perm hi).map fun d => Task.ended (some d)
  exact (hqueue.symm.append_left o.loop.running).trans List.perm_middle

/-- What is left of a task that was carried on: nothing when it has ended
without a delivery. -/
def remains : Task → List Task
  | .ended none => []
  | task => [task]

theorem remains_of_becomes {c : Command} {reason : Prop} {task : Task}
    (h : c.Becomes reason task) :
    (∃ task', remains task = [task'] ∧ task'.owner? = some c.owner ∧
      task'.layer? = some c.layer) ∨ (remains task = [] ∧ reason) := by
  cases h with
  | waits howner hlayer => exact Or.inl ⟨_, rfl, congrArg some howner, congrArg some hlayer⟩
  | delivers howner hlayer => exact Or.inl ⟨_, rfl, howner, hlayer⟩
  | ends hreason => exact Or.inr ⟨rfl, hreason⟩

/-- Carrying a task on leaves one task for the same session and the same step,
or none for a reason. -/
theorem remains_proceed (s : Workshop) (task : Task) :
    (∃ task', remains (Workshop.proceed task s).1 = [task'] ∧ task'.owner? = task.owner? ∧
      task'.layer? = task.layer?) ∨
    (remains (Workshop.proceed task s).1 = [] ∧ ∀ n, task.owner? = some n → s.Silences n) := by
  cases task with
  | fresh c =>
    exact (remains_of_becomes (Workshop.becomes_proceed s (Or.inl rfl))).imp_right
      fun ⟨hnone, hsilences⟩ => ⟨hnone, fun n hn => Option.some.inj hn ▸ hsilences⟩
  | waiting c =>
    exact (remains_of_becomes (Workshop.becomes_proceed s (Or.inr rfl))).imp_right
      fun ⟨hnone, hsilences⟩ => ⟨hnone, fun n hn => Option.some.inj hn ▸ hsilences⟩
  | ended d =>
    cases d with
    | none => exact Or.inr ⟨rfl, fun n hn => by cases hn⟩
    | some d => exact Or.inl ⟨_, rfl, rfl, rfl⟩

/-- Carrying a task on changes this one task. -/
theorem items_carry {o : Office} {i : Nat} {task : Task} (htask : o.loop.running[i]? = some task)
    (r : Task × Workshop) : ∃ rest, o.items.Perm (task :: rest) ∧
      (o.carry i r).items.Perm (remains r.1 ++ rest) := by
  obtain ⟨hi, rfl⟩ := List.getElem?_eq_some_iff.1 htask
  refine ⟨o.loop.running.eraseIdx i ++ o.loop.queue.map fun d => .ended (some d), ?_, ?_⟩
  · exact (List.getElem_cons_eraseIdx_perm hi).symm.append_right _
  · rcases r with ⟨task', s⟩
    cases task' with
    | fresh c => exact (List.set_perm_cons_eraseIdx hi (Task.fresh c)).append_right _
    | waiting c => exact (List.set_perm_cons_eraseIdx hi (Task.waiting c)).append_right _
    | ended d =>
      show (o.loop.running.eraseIdx i ++ (o.loop.queue ++ d.toList).map _).Perm _
      rw [List.map_append, ← List.append_assoc]
      cases d with
      | none =>
        show (_ ++ []).Perm _
        rw [List.append_nil]
        exact List.Perm.refl _
      | some d => exact List.perm_append_comm

end Office
end Intake
