import Mathlib.Data.List.Perm.Basic
import Intake.Loop.Timed

/-!
# Delivery

Every message that a loop is given is handled once, in the order in which
messages queue up, and every command that it is given is started once.

A command that ends does two things: it leaves the commands that run, and it
queues its message. Nothing else happens between the two, but they are two
moves here, so that a loop can be seen with a message in hand.

There are five groups.

* Moves.  `Loop.Move` is one move of a loop, `Loop.History` a run with all
  that happens in it.
* Accounts.  What was posted was handled or waits; what was started has ended
  or runs. Each is kept by one move, and so by every run.
* Fruitless ends.  A command that fails, or that yields no message, is taken
  off the running ones and changes nothing else.
* Waiting.  `Loop.RunsUntil` is the wait for a state. It gives up at an idle
  loop only, and nothing arrives at an idle loop by itself.
* Timed loops.  A timed loop runs as a loop does, and so does its wait.
-/

namespace Intake.Loop

variable {σ α κ : Type}

/-! ## Moves -/

/-- A command leaves the running ones. -/
def leave (l : Loop α κ) (i : Nat) : Loop α κ := { l with running := l.running.eraseIdx i }

/-- The message of a command queues up, if it has one. -/
def arrive (l : Loop α κ) (m : Option α) : Loop α κ := { l with queue := l.queue ++ m.toList }

/-- What happens at a loop. -/
inductive Event (α κ : Type)
  | starts (c : Option κ)
  | posts (m : α)
  | leaves (c : κ) (r : Except Fault (Option α))
  | arrives
  | handles (m : α) (c : Option κ)
  | changes

namespace Event

/-- The message that somebody outside posts, or that a command yields. -/
def posted : Event α κ → List α
  | posts m => [m]
  | leaves _ r => (Timed.messageOf r).toList
  | _ => []

/-- The message that is handled. -/
def handled : Event α κ → List α
  | handles m _ => [m]
  | _ => []

/-- The command that is started, from outside or for a message. -/
def started : Event α κ → List κ
  | starts c => c.toList
  | handles _ c => c.toList
  | _ => []

/-- The command that ends. -/
def ended : Event α κ → List κ
  | leaves c _ => [c]
  | _ => []

/-- Somebody outside gives the loop a command or a message. -/
def IsOutside : Event α κ → Prop
  | starts _ => True
  | posts _ => True
  | _ => False

end Event

/-- A loop and the state that its messages change. A command that has left
the running ones may have what it yields in hand. -/
structure Moment (σ α κ : Type) where
  state : σ
  loop : Loop α κ
  held : Option (Option α) := none

/-- The messages still to be handled. -/
def Moment.waiting (o : Moment σ α κ) : List α := o.loop.queue ++ o.held.join.toList

/-- One move of a loop. While a command has its message in hand nothing else
moves. -/
inductive Move (update : Update σ α κ) : Moment σ α κ → Event α κ → Moment σ α κ → Prop
  | starts (s : σ) (l : Loop α κ) (c : Option κ) :
      Move update ⟨s, l, none⟩ (.starts c) ⟨s, l.dispatch c, none⟩
  | posts (s : σ) (l : Loop α κ) (m : α) :
      Move update ⟨s, l, none⟩ (.posts m) ⟨s, l.send m, none⟩
  | leaves {s : σ} {l : Loop α κ} {i : Nat} {c : κ} (r : Except Fault (Option α))
      (hc : l.running[i]? = some c) :
      Move update ⟨s, l, none⟩ (.leaves c r) ⟨s, l.leave i, some (Timed.messageOf r)⟩
  | arrives (s : σ) (l : Loop α κ) (m : Option α) :
      Move update ⟨s, l, some m⟩ .arrives ⟨s, l.arrive m, none⟩
  | handles {s s' : σ} {l l' : Loop α κ} {m : α} (hm : l.step update s = some (m, s', l')) :
      Move update ⟨s, l, none⟩ (.handles m (update s m).2) ⟨s', l', none⟩
  | changes (s s' : σ) (l : Loop α κ) : Move update ⟨s, l, none⟩ .changes ⟨s', l, none⟩

/-- A run of a loop with all that happens in it, the oldest first. -/
inductive History (update : Update σ α κ) (o : Moment σ α κ) :
    List (Event α κ) → Moment σ α κ → Prop
  | nil : History update o [] o
  | snoc {es : List (Event α κ)} {e : Event α κ} {o' o'' : Moment σ α κ}
      (hrun : History update o es o') (hmove : Move update o' e o'') :
      History update o (es ++ [e]) o''

variable {update : Update σ α κ} {o o' o'' : Moment σ α κ} {e : Event α κ}
  {es es' : List (Event α κ)} {s s' : σ} {l l' : Loop α κ} {m : α}

theorem history_of_move (h : Move update o e o') : History update o [e] o' := by
  have hnone : History update o [] o := .nil
  exact hnone.snoc h

theorem History.append (h : History update o es o') (h' : History update o' es' o'') :
    History update o (es ++ es') o'' := by
  induction h' with
  | nil => simpa using h
  | snoc _ hmove ih => simpa only [← List.append_assoc] using ih.snoc hmove

/-- A command that ends leaves, and what it yields arrives. -/
theorem history_finish {i : Nat} {c : κ} (r : Except Fault (Option α))
    (hc : l.running[i]? = some c) :
    History update ⟨s, l, none⟩ [.leaves c r, .arrives]
      ⟨s, l.finish i (Timed.messageOf r), none⟩ :=
  (history_of_move (.leaves r hc)).append (history_of_move (.arrives s (l.leave i) _))

/-! ## Accounts -/

/-- One move keeps the account of messages. -/
theorem waiting_of_move (h : Move update o e o') :
    o.waiting ++ e.posted = e.handled ++ o'.waiting := by
  cases h with
  | handles hm =>
    obtain ⟨rest, hq, rfl, rfl⟩ := step_eq_some.mp hm
    simp [Moment.waiting, Event.posted, Event.handled, hq]
  | _ => simp [Moment.waiting, Event.posted, Event.handled, leave, arrive]

theorem waiting_of_history (h : History update o es o') :
    o.waiting ++ es.flatMap Event.posted = es.flatMap Event.handled ++ o'.waiting := by
  induction h with
  | nil => simp
  | snoc _ hmove ih =>
    have hmoved := waiting_of_move hmove
    rw [List.flatMap_append, List.flatMap_append, ← List.append_assoc, ih, List.append_assoc,
      List.append_assoc, List.flatMap_singleton, List.flatMap_singleton, hmoved]

/-- One move keeps the account of commands. -/
theorem running_of_move (h : Move update o e o') :
    (o.loop.running ++ e.started).Perm (e.ended ++ o'.loop.running) := by
  cases h with
  | @leaves _ l i c _ hc =>
    obtain ⟨hi, rfl⟩ := List.getElem?_eq_some_iff.mp hc
    have hperm := List.getElem_cons_eraseIdx_perm hi
    simpa [Event.started, Event.ended, leave] using hperm.symm
  | handles hm =>
    obtain ⟨rest, -, rfl, rfl⟩ := step_eq_some.mp hm
    exact .refl _
  | starts => exact .refl _
  | _ => simp [Event.started, Event.ended, arrive]

theorem running_of_history (h : History update o es o') :
    (o.loop.running ++ es.flatMap Event.started).Perm
      (es.flatMap Event.ended ++ o'.loop.running) := by
  induction h with
  | nil => simp
  | @snoc es _ _ _ _ hmove ih =>
    have hmoved := (running_of_move hmove).append_left (es.flatMap Event.ended)
    rw [List.flatMap_append, List.flatMap_append, List.flatMap_singleton, List.flatMap_singleton,
      ← List.append_assoc, List.append_assoc _ _ (Loop.running _)]
    refine (ih.append_right _).trans ?_
    rwa [List.append_assoc]

/-- The state is what the messages made of it, each handled once. -/
theorem state_of_history (h : History update o es o') (hunchanged : Event.changes ∉ es) :
    o'.state = (es.flatMap Event.handled).foldl (fun s m => (update s m).1) o.state := by
  induction h with
  | nil => rfl
  | @snoc es e _ _ _ hmove ih =>
    simp only [List.mem_append, List.mem_singleton, not_or] at hunchanged
    have hbefore := ih hunchanged.1
    rw [List.flatMap_append, List.foldl_append, ← hbefore, List.flatMap_singleton]
    cases hmove with
    | handles hm =>
      obtain ⟨_, _, rfl, _⟩ := step_eq_some.mp hm
      rfl
    | changes => exact absurd rfl hunchanged.2
    | _ => rfl

/-! ## Fruitless ends -/

theorem queue_finish_of_fruitless (l : Loop α κ) (i : Nat) {r : Except Fault (Option α)}
    (hr : Timed.messageOf r = none) : (l.finish i (Timed.messageOf r)).queue = l.queue := by
  rw [queue_finish, hr]
  exact List.append_nil _

/-- A command that ends with nothing does not keep the loop from its next
message. -/
theorem step_finish_of_fruitless (update : Update σ α κ) (s : σ) {i : Nat}
    (hi : i < l.running.length) {r : Except Fault (Option α)} (hr : Timed.messageOf r = none) :
    (l.finish i (Timed.messageOf r)).step update s =
      (l.step update s).map fun (m, s', l') => (m, s', l'.finish i (Timed.messageOf r)) := by
  rw [step, step, queue_finish_of_fruitless l i hr, hr]
  cases l.queue with
  | nil => rfl
  | cons m rest =>
    simp only [Option.map_some, Option.some.injEq, Prod.mk.injEq, true_and]
    simp [dispatch, finish, List.eraseIdx_append_of_lt_length hi]

/-! ## Waiting -/

/-- A wait for a state. Messages are handled while there are any; when there
are none, commands are waited for, and whatever else happens meanwhile. -/
inductive RunsUntil (update : Update σ α κ) (enough : σ → Bool) :
    Moment σ α κ → List (Event α κ) → Moment σ α κ → Prop
  | reached {s : σ} (l : Loop α κ) (henough : enough s = true) :
      RunsUntil update enough ⟨s, l, none⟩ [] ⟨s, l, none⟩
  | spent {s : σ} {l : Loop α κ} (hidle : l.isIdle = true) (henough : enough s = false) :
      RunsUntil update enough ⟨s, l, none⟩ [] ⟨s, l, none⟩
  | waits {s s' : σ} {l l' : Loop α κ} {es es' : List (Event α κ)} {o : Moment σ α κ}
      (henough : enough s = false) (hqueue : l.queue = []) (hrunning : l.running ≠ [])
      (hmeanwhile : History update ⟨s, l, none⟩ es ⟨s', l', none⟩)
      (hothers : es.flatMap Event.handled = [])
      (hrest : RunsUntil update enough ⟨s', l', none⟩ es' o) :
      RunsUntil update enough ⟨s, l, none⟩ (es ++ es') o
  | handles {s s' : σ} {l l' : Loop α κ} {m : α} {es : List (Event α κ)} {o : Moment σ α κ}
      (henough : enough s = false) (hm : l.step update s = some (m, s', l'))
      (hrest : RunsUntil update enough ⟨s', l', none⟩ es o) :
      RunsUntil update enough ⟨s, l, none⟩ (.handles m (update s m).2 :: es) o

variable {enough : σ → Bool}

theorem history_of_runsUntil (h : RunsUntil update enough o es o') : History update o es o' := by
  induction h with
  | reached => exact .nil
  | spent => exact .nil
  | waits _ _ _ hmeanwhile _ _ ih => exact hmeanwhile.append ih
  | handles _ hm _ ih => exact (history_of_move (.handles hm)).append ih

/-- A wait ends in the state waited for, or at an idle loop; no command has
its message in hand then. -/
theorem held_of_runsUntil (h : RunsUntil update enough o es o') :
    o'.held = none ∧ (enough o'.state = true ∨ o'.loop.isIdle = true) := by
  induction h with
  | reached _ henough => exact ⟨rfl, Or.inl henough⟩
  | spent hidle _ => exact ⟨rfl, Or.inr hidle⟩
  | waits _ _ _ _ _ _ ih => exact ih
  | handles _ _ _ ih => exact ih

theorem isIdle_iff : l.isIdle = true ↔ l = {} := by
  cases l
  simp [isIdle, and_comm]

/-- At an idle loop nothing happens that does not come from outside. -/
theorem move_of_idle (h : Move update ⟨s, {}, none⟩ e o) (hinside : ¬ e.IsOutside) :
    e = .changes ∧ ∃ s', o = ⟨s', {}, none⟩ := by
  cases h with
  | starts => exact absurd trivial hinside
  | posts => exact absurd trivial hinside
  | leaves _ hc => simp at hc
  | handles hm => simp [step] at hm
  | changes _ s' => exact ⟨rfl, s', rfl⟩

/-- Without anything from outside an idle loop stays idle, and no message
arrives. -/
theorem quiet_of_idle (h : History update ⟨s, {}, none⟩ es o)
    (hinside : ∀ e ∈ es, ¬ e.IsOutside) : (∀ e ∈ es, e = .changes) ∧ ∃ s', o = ⟨s', {}, none⟩ := by
  induction h with
  | nil => exact ⟨by simp, s, rfl⟩
  | @snoc es e _ _ _ hmove ih =>
    obtain ⟨hchanges, s', rfl⟩ := ih fun e he => hinside e (List.mem_append_left _ he)
    obtain ⟨rfl, hidle⟩ := move_of_idle hmove (hinside e (by simp))
    refine ⟨fun e he => ?_, hidle⟩
    rcases List.mem_append.mp he with he | he
    · exact hchanges e he
    · exact List.mem_singleton.mp he

end Intake.Loop

/-! ## Timed loops -/

namespace Intake.Timed

variable {σ α κ : Type} {perform : Performance α κ} {update : Loop.Update σ α κ}
  {enough : σ → Bool} {s s' : σ} {t t' : Timed α κ} {rs : List (Running κ)} {r : Running κ}
  {i : Nat} {m : α}

/-- A timed loop without its times. -/
def untimed (t : Timed α κ) : Loop α κ := ⟨t.loop.queue, t.loop.running.map Running.command⟩

/-- A timed loop at a moment of a run. -/
def moment (s : σ) (t : Timed α κ) : Loop.Moment σ α κ := ⟨s, t.untimed, none⟩

theorem getElem?_of_earliest (h : earliest rs = some (i, r)) : rs[i]? = some r := by
  induction rs generalizing i with
  | nil => simp [earliest] at h
  | cons first rest ih =>
    rw [earliest] at h
    split at h
    · obtain ⟨rfl, rfl⟩ := Prod.mk.inj (Option.some.inj h)
      rfl
    next j earlier hrest =>
      split at h
      · obtain ⟨rfl, rfl⟩ := Prod.mk.inj (Option.some.inj h)
        exact ih hrest
      · obtain ⟨rfl, rfl⟩ := Prod.mk.inj (Option.some.inj h)
        rfl

theorem earliest_eq_none_iff : earliest rs = none ↔ rs = [] := by
  cases rs with
  | nil => simp [earliest]
  | cons first rest =>
    rw [earliest]
    split
    · simp
    · split <;> simp

/-- The command that ends first is one of those that run. -/
theorem endEarliest_eq_some (h : t.endEarliest perform = some t') :
    ∃ i r, t.loop.running[i]? = some r ∧
      t'.loop = t.loop.finish i (messageOf (perform.result r.command)) := by
  obtain ⟨⟨i, r⟩, hfirst, rfl⟩ := Option.map_eq_some_iff.mp h
  exact ⟨i, r, getElem?_of_earliest hfirst, rfl⟩

theorem length_running_endEarliest (h : t.endEarliest perform = some t') :
    t'.loop.running.length + 1 = t.loop.running.length := by
  obtain ⟨i, r, hr, hloop⟩ := endEarliest_eq_some h
  obtain ⟨hi, -⟩ := List.getElem?_eq_some_iff.mp hr
  rw [hloop, Loop.running_finish, List.length_eraseIdx_of_lt hi]
  omega

theorem history_endEarliest (update : Loop.Update σ α κ) (s : σ)
    (h : t.endEarliest perform = some t') :
    ∃ c r, Loop.History update (moment s t) [.leaves c r, .arrives] (moment s t') := by
  obtain ⟨i, r, hr, hloop⟩ := endEarliest_eq_some h
  have hcommand : t.untimed.running[i]? = some r.command := by
    rw [untimed, List.getElem?_map, hr]
    rfl
  have hfinished : t'.untimed =
      t.untimed.finish i (messageOf (perform.result r.command)) := by
    rw [untimed, hloop]
    simp [untimed, Loop.finish, List.eraseIdx_map]
  refine ⟨r.command, perform.result r.command, ?_⟩
  rw [moment, moment, hfinished]
  exact Loop.history_finish (perform.result r.command) hcommand

/-- Commands that are waited for end one by one, and a wait for a state goes
on afterwards. -/
theorem waits_awaitWithin (perform : Performance α κ) (update : Loop.Update σ α κ)
    (henough : enough s = false) (n : Nat) (t : Timed α κ) :
    ∃ es, es.flatMap Loop.Event.handled = [] ∧
      Loop.History update (moment s t) es (moment s (awaitWithin perform n t)) ∧
      ∀ {es' o}, Loop.RunsUntil update enough (moment s (awaitWithin perform n t)) es' o →
        Loop.RunsUntil update enough (moment s t) (es ++ es') o := by
  induction n generalizing t with
  | zero => exact ⟨[], rfl, .nil, fun h => h⟩
  | succ n ih =>
    rw [awaitWithin]
    split
    next hqueue =>
      split
      next t' hends =>
        obtain ⟨es, hothers, hhistory, hrest⟩ := ih t'
        obtain ⟨c, r, hfirst⟩ := history_endEarliest update s hends
        have hrunning : t.untimed.running ≠ [] := by
          intro hnone
          have hlength := length_running_endEarliest hends
          rw [List.map_eq_nil_iff.mp hnone] at hlength
          exact Nat.succ_ne_zero _ hlength
        refine ⟨[.leaves c r, .arrives] ++ es, hothers, hfirst.append hhistory, fun h => ?_⟩
        rw [List.append_assoc]
        exact .waits henough (List.isEmpty_iff.mp hqueue) hrunning hfirst rfl (hrest h)
      · exact ⟨[], rfl, .nil, fun h => h⟩
    · exact ⟨[], rfl, .nil, fun h => h⟩

/-- If no message came, no command runs any more. -/
theorem running_awaitWithin {n : Nat} (hn : t.loop.running.length ≤ n)
    (hqueue : (awaitWithin perform n t).loop.queue = []) :
    (awaitWithin perform n t).loop.running = [] := by
  induction n generalizing t with
  | zero => exact List.length_eq_zero_iff.mp (Nat.le_zero.mp hn)
  | succ n ih =>
    rw [awaitWithin] at hqueue ⊢
    split at hqueue
    next hempty =>
      rw [if_pos hempty]
      cases hends : t.endEarliest perform with
      | some t' =>
        rw [hends] at hqueue
        have hlength := length_running_endEarliest hends
        exact ih (by omega) hqueue
      | none =>
        exact earliest_eq_none_iff.mp (Option.map_eq_none_iff.mp hends)
    next hwaiting => exact absurd (List.isEmpty_iff.mpr hqueue) hwaiting

/-- A step waits for a message and handles it. -/
theorem step_eq_some (h : step perform update s t = (some m, s', t')) :
    Loop.step update s (t.await perform).untimed = some (m, s', t'.untimed) := by
  rw [step] at h
  split at h
  next hm =>
    obtain ⟨rfl, rfl, rfl⟩ := h
    obtain ⟨rest, hqueue, rfl, rfl⟩ := Loop.step_eq_some.mp hm
    refine Loop.step_eq_some.mpr ⟨rest, hqueue, rfl, ?_⟩
    cases hc : (update s _).2 <;> simp [untimed, hc, timed]
  · cases h

/-- If a step handles nothing, nothing runs any more. -/
theorem step_eq_none (h : step perform update s t = (none, s', t')) :
    s' = s ∧ t' = t.await perform ∧ t'.untimed.isIdle = true := by
  rw [step] at h
  split at h
  · cases h
  next hm =>
    obtain ⟨-, rfl, rfl⟩ := h
    have hqueue : (t.await perform).loop.queue = [] := by
      rw [Loop.step] at hm
      split at hm
      · assumption
      · cases hm
    have hrunning : (t.await perform).loop.running = [] :=
      running_awaitWithin (Nat.le_refl _) hqueue
    refine ⟨rfl, rfl, Loop.isIdle_iff.mpr ?_⟩
    rw [untimed, hqueue, hrunning]
    rfl

/-- A timed wait runs as a wait does, unless its fuel is spent, one message
for each unit of it. -/
theorem runsUntil_runUntil {fuel : Nat} (h : runUntil perform update enough fuel s t = (s', t')) :
    ∃ es, Loop.History update (moment s t) es (moment s' t') ∧
      ((es.flatMap Loop.Event.handled).length = fuel ∨
        Loop.RunsUntil update enough (moment s t) es (moment s' t')) := by
  induction fuel generalizing s t with
  | zero =>
    obtain ⟨rfl, rfl⟩ := Prod.mk.inj h
    exact ⟨[], .nil, Or.inl rfl⟩
  | succ fuel ih =>
    rw [runUntil] at h
    split at h
    next henough =>
      obtain ⟨rfl, rfl⟩ := Prod.mk.inj h
      exact ⟨[], .nil, Or.inr (.reached _ henough)⟩
    next hgoes =>
      have henough := Bool.eq_false_iff.mpr hgoes
      obtain ⟨es, hothers, hawaited, hrest⟩ :=
        waits_awaitWithin perform update henough t.loop.running.length t
      split at h
      next m s₁ t₁ hstep =>
        have hm := step_eq_some hstep
        obtain ⟨es', hhistory, hends⟩ := ih h
        refine ⟨es ++ .handles m (update s m).2 :: es', ?_, ?_⟩
        · exact hawaited.append
            ((Loop.history_of_move (.handles hm)).append hhistory)
        · rcases hends with hspent | hruns
          · left
            simp [List.flatMap_append, hothers, List.flatMap_cons, Loop.Event.handled, hspent]
          · exact Or.inr (hrest (.handles henough hm hruns))
      next hstep =>
        obtain ⟨rfl, rfl⟩ := Prod.mk.inj h
        obtain ⟨rfl, rfl, hidle⟩ := step_eq_none hstep
        have hruns := hrest (.spent hidle henough)
        rw [List.append_nil] at hruns
        exact ⟨es, hawaited, Or.inr hruns⟩

end Intake.Timed

/-! ## Once each -/

namespace Intake.Loop

variable {σ α κ : Type} {update : Update σ α κ} {o : Moment σ α κ} {es : List (Event α κ)}

/-- Every message is delivered once. At each moment of a run what was posted
or yielded has been handled, in the order in which it queued up, or waits, and
each command that was started has ended or runs. A command that ends with
nothing does not keep the loop from its next message. A wait for what never
comes ends at an idle loop only: all that was posted has been handled then,
and nothing more arrives unless it comes from outside. A timed loop waits in
this way until it has no fuel. -/
theorem delivered_once {start : σ} (h : History update ⟨start, {}, none⟩ es o) :
    es.flatMap Event.posted = es.flatMap Event.handled ++ o.waiting ∧
    (Event.changes ∉ es →
      o.state = (es.flatMap Event.handled).foldl (fun s m => (update s m).1) start) ∧
    (es.flatMap Event.started).Perm (es.flatMap Event.ended ++ o.loop.running) ∧
    (∀ i r, i < o.loop.running.length → Timed.messageOf r = none →
      (o.loop.finish i (Timed.messageOf r)).queue = o.loop.queue ∧
      (o.loop.finish i (Timed.messageOf r)).step update o.state =
        (o.loop.step update o.state).map fun (m, s, l) =>
          (m, s, l.finish i (Timed.messageOf r))) ∧
    (∀ es' o', RunsUntil update (fun _ => false) o es' o' →
      (o'.loop.isIdle = true ∧ o'.held = none) ∧
      (es ++ es').flatMap Event.posted = (es ++ es').flatMap Event.handled ∧
      ((es ++ es').flatMap Event.started).Perm ((es ++ es').flatMap Event.ended) ∧
      ∀ es'' o'', History update o' es'' o'' → (∀ e ∈ es'', ¬ e.IsOutside) →
        ∀ e ∈ es'', e = .changes) ∧
    ∀ perform fuel (t : Timed α κ) s' t', o = Timed.moment o.state t →
      Timed.runUntil perform update (fun _ => false) fuel o.state t = (s', t') →
      ∃ es', History update o es' (Timed.moment s' t') ∧
        ((es'.flatMap Event.handled).length = fuel ∨
          RunsUntil update (fun _ => false) o es' (Timed.moment s' t')) := by
  have hmessages := waiting_of_history h
  have hcommands := running_of_history h
  refine ⟨by simpa [Moment.waiting] using hmessages, state_of_history h, by simpa using hcommands,
    fun i r hi hr => ⟨queue_finish_of_fruitless _ i hr, step_finish_of_fruitless update _ hi hr⟩,
    fun es' o' hwait => ?_, fun perform fuel t s' t' ho hruns => ?_⟩
  · obtain ⟨hheld, hends⟩ := held_of_runsUntil hwait
    have hidle : o'.loop.isIdle = true := hends.resolve_left Bool.false_ne_true
    obtain ⟨s', l', held'⟩ := o'
    obtain rfl : held' = none := hheld
    obtain rfl : l' = {} := isIdle_iff.mp hidle
    have hwhole := h.append (history_of_runsUntil hwait)
    have hposted := waiting_of_history hwhole
    have hstarted := running_of_history hwhole
    refine ⟨⟨hidle, rfl⟩, by simpa [Moment.waiting] using hposted, by simpa using hstarted, ?_⟩
    exact fun es'' o'' hlater hinside => (quiet_of_idle hlater hinside).1
  · rw [ho]
    exact Timed.runsUntil_runUntil hruns

/-- Writes every message down, and answers 0 and 1 with a command. -/
def tally : Update (List Nat) Nat Nat := fun s m =>
  (s ++ [m], if m < 2 then some (m + 1) else none)

/-- Two commands, a message from outside, and a command that fails. -/
def tallied : List (Event Nat Nat) :=
  [.starts (some 7), .starts (some 8), .posts 0, .handles 0 (some 1),
    .leaves 8 (.error (.plain .runtime "boom")), .arrives]

/-- The rest: one command yields nothing, the others a message each. -/
def talliedLater : List (Event Nat Nat) :=
  [.leaves 1 (.ok (some 1)), .arrives, .handles 1 (some 2), .leaves 7 (.ok none), .arrives,
    .leaves 2 (.ok (some 2)), .arrives, .handles 2 none]

theorem history_tallied : History tally ⟨[], {}, none⟩ tallied ⟨[0], ⟨[], [7, 1]⟩, none⟩ := by
  have hstarted : History tally ⟨[], {}, none⟩ [.starts (some 7), .starts (some 8), .posts 0]
      ⟨[], ⟨[0], [7, 8]⟩, none⟩ :=
    ((history_of_move (.starts [] {} (some 7))).snoc (.starts _ _ (some 8))).snoc (.posts _ _ 0)
  have hhandled := hstarted.snoc (.handles (m := 0) rfl)
  have hleft := hhandled.snoc (.leaves (i := 1) (.error (.plain .runtime "boom")) rfl)
  exact hleft.snoc (.arrives _ _ none)

theorem runsUntil_tallied : RunsUntil tally (fun _ => false) ⟨[0], ⟨[], [7, 1]⟩, none⟩
    talliedLater ⟨[0, 1, 2], {}, none⟩ := by
  have hlast : RunsUntil tally (fun _ => false) ⟨[0, 1], ⟨[2], []⟩, none⟩ [.handles 2 none]
      ⟨[0, 1, 2], {}, none⟩ := .handles rfl rfl (.spent rfl rfl)
  have hsecond : RunsUntil tally (fun _ => false) ⟨[0, 1], ⟨[], [2]⟩, none⟩ _ _ :=
    .waits rfl rfl (by decide) (history_finish (i := 0) (.ok (some 2)) rfl) rfl hlast
  have hnothing : RunsUntil tally (fun _ => false) ⟨[0, 1], ⟨[], [7, 2]⟩, none⟩ _ _ :=
    .waits rfl rfl (by decide) (history_finish (i := 0) (.ok none) rfl) rfl hsecond
  exact .waits rfl rfl (by decide) (history_finish (i := 1) (.ok (some 1)) rfl) rfl
    (.handles rfl rfl hnothing)

theorem delivered_once_tallied :
    tallied.flatMap Event.posted = [0] ∧
    (tallied ++ talliedLater).flatMap Event.posted = [0, 1, 2] ∧
    (tallied ++ talliedLater).flatMap Event.handled = [0, 1, 2] ∧
    ((tallied ++ talliedLater).flatMap Event.started).Perm [8, 1, 7, 2] := by
  have hdelivered := delivered_once history_tallied
  have hwaited := hdelivered.2.2.2.2.1 _ _ runsUntil_tallied
  refine ⟨hdelivered.1, rfl, hwaited.2.1.symm.trans rfl, ?_⟩
  exact hwaited.2.2.1.trans (.of_eq rfl)

end Intake.Loop
