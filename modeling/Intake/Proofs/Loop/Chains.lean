import Intake.Proofs.Loop.Delivery

/-!
# Chains of commands

A chain of commands is run by a plain loop, or by a message loop that is given
nothing else.  Both handle the same messages, in the same order.

There are four groups.

* Chains.  `Timed.Chain` says which messages a chain of commands brings about,
  and what they make of the state.
* Plain loops.  `drive_of_chain` runs a chain to its end.
* Message loops.  `Loop.Stands` is the place that a loop has reached in a
  chain; `stands_of_move` is one move and `stands_of_history` a run.
  `history_of_chain` and `handled_of_chain` say how runs begin and end.
* Timed loops.  `runUntil_of_chain` waits for the end of a chain, and
  `drives_alike` is the result.
-/

namespace Intake

variable {σ α κ : Type}

/-! ## Chains -/

namespace Timed

/-- The messages of a chain of commands.  A command yields one, and handling it
may give the next command.  The chain ends with a command that yields no message
or with a message that gives no command. -/
inductive Chain (perform : Performance α κ) (update : Loop.Update σ α κ) :
    σ → Option κ → List α → σ → Prop where
  | spent (s : σ) : Chain perform update s none [] s
  | silent {s : σ} {c : κ} (h : perform.result c = .ok none) : Chain perform update s (some c) [] s
  | next {s s' : σ} {c : κ} {m : α} {ms : List α} (h : perform.result c = .ok (some m))
      (hrest : Chain perform update (update s m).1 (update s m).2 ms s') :
      Chain perform update s (some c) (m :: ms) s'

/-- Writes down beside the state what is handled. -/
def noting (update : Loop.Update σ α κ) : Loop.Update (σ × List α) α κ := fun s m =>
  (((update s.1 m).1, s.2 ++ [m]), (update s.1 m).2)

variable {perform : Performance α κ} {update : Loop.Update σ α κ} {s s' : σ} {c : Option κ}
  {m : α} {ms : List α}

/-! ## Plain loops -/

/-- A loop after a command of a chain has run beside it. -/
def runBeside (perform : Performance α κ) (t : Timed α κ) (c : κ) : Timed α κ :=
  { endBefore perform (t.now + perform.seconds c) t.loop.running.length t with
    now := t.now + perform.seconds c }

theorem drive_silent {c : κ} (h : perform.result c = .ok none) (fuel handled : Nat) (s : σ)
    (t : Timed α κ) : drive perform update (fuel + 1) handled s t (some c) =
      (.ok handled, s, runBeside perform t c) := by
  rw [drive, h]
  rfl

theorem drive_next {c : κ} (h : perform.result c = .ok (some m)) (fuel handled : Nat) (s : σ)
    (t : Timed α κ) : drive perform update (fuel + 1) handled s t (some c) =
      drive perform update fuel (handled + 1) (update s m).1 (runBeside perform t c)
        (update s m).2 := by
  rw [drive, h]
  rfl

/-- A chain that is run handles its messages and counts them. -/
theorem drive_of_chain (h : Chain perform update s c ms s') {fuel : Nat}
    (hfuel : ms.length < fuel) (handled : Nat) (seen : List α) (t : Timed α κ) :
    ∃ t', drive perform (noting update) fuel handled (s, seen) t c =
      (.ok (handled + ms.length), (s', seen ++ ms), t') := by
  induction h generalizing fuel handled seen t with
  | spent s =>
    refine ⟨t, ?_⟩
    rw [List.append_nil]
    cases fuel <;> rfl
  | @silent s c hc =>
    obtain ⟨fuel, rfl⟩ := Nat.exists_eq_succ_of_ne_zero (Nat.ne_zero_of_lt hfuel)
    rw [List.append_nil]
    exact ⟨_, drive_silent hc fuel handled (s, seen) t⟩
  | @next s s' c m ms hc _ ih =>
    obtain ⟨fuel, rfl⟩ := Nat.exists_eq_succ_of_ne_zero (Nat.ne_zero_of_lt hfuel)
    obtain ⟨t', hdrive⟩ := ih (Nat.lt_of_succ_lt_succ hfuel) (handled + 1) (seen ++ [m])
      (runBeside perform t c)
    refine ⟨t', (drive_next hc fuel handled (s, seen) t).trans ?_⟩
    rw [List.length_cons, ← List.singleton_append, ← List.append_assoc, Nat.add_comm ms.length,
      ← Nat.add_assoc]
    exact hdrive

end Timed

/-! ## Message loops -/

namespace Loop

variable {perform : Performance α κ} {update : Update σ α κ} {s s' : σ} {c : Option κ}
  {ms : List α} {o o' : Moment σ α κ} {e : Event α κ} {es : List (Event α κ)}

/-- What happens at a loop that is left alone: nothing comes from outside, the
state changes by messages only, and a command yields what it yields. -/
def Event.IsOwn (perform : Performance α κ) : Event α κ → Prop
  | .starts _ => False
  | .posts _ => False
  | .changes => False
  | .leaves c r => r = perform.result c
  | _ => True

/-- The place that a loop has reached in a chain, with the messages that are
still to be handled and the state that they lead to.  A command runs, or what
it yields is in hand, or its message waits. -/
inductive Stands (perform : Performance α κ) (update : Update σ α κ) (s' : σ) :
    Moment σ α κ → List α → Prop where
  | runs {s : σ} {c : Option κ} {ms : List α} (h : Timed.Chain perform update s c ms s') :
      Stands perform update s' ⟨s, ⟨[], c.toList⟩, none⟩ ms
  | silent : Stands perform update s' ⟨s', {}, some none⟩ []
  | holds {s : σ} {m : α} {ms : List α}
      (h : Timed.Chain perform update (update s m).1 (update s m).2 ms s') :
      Stands perform update s' ⟨s, {}, some (some m)⟩ (m :: ms)
  | waits {s : σ} {m : α} {ms : List α}
      (h : Timed.Chain perform update (update s m).1 (update s m).2 ms s') :
      Stands perform update s' ⟨s, ⟨[m], []⟩, none⟩ (m :: ms)

/-- How many moves a loop may still make while so many messages of its chain
are to be handled.  Each takes a command, the message in hand, and the queue. -/
def Moment.owed (o : Moment σ α κ) (messages : Nat) : Nat :=
  3 * messages + 2 * o.loop.running.length + o.held.toList.length

theorem owed_dispatch_lt (s t : σ) (m : α) (c : Option κ) (n : Nat) :
    (⟨t, dispatch {} c, none⟩ : Moment σ α κ).owed n <
      (⟨s, ⟨[m], []⟩, none⟩ : Moment σ α κ).owed (n + 1) := by
  have hcommand : c.toList.length ≤ 1 := Option.length_toList_le
  show 3 * n + 2 * c.toList.length + 0 < 3 * (n + 1) + 0 + 0
  omega

/-- One move goes on in the chain, what it handles is the next message, and
fewer moves are left. -/
theorem stands_of_move (h : Stands perform update s' o ms) (hmove : Move update o e o')
    (hown : e.IsOwn perform) :
    ∃ rest, ms = e.handled ++ rest ∧ Stands perform update s' o' rest ∧
      o'.owed rest.length < o.owed ms.length := by
  cases hmove with
  | starts => exact hown.elim
  | posts => exact hown.elim
  | changes => exact hown.elim
  | @leaves s l i c r hc =>
    obtain rfl : r = perform.result c := hown
    cases h with
    | waits => exact absurd hc (by simp)
    | runs hchain =>
      cases hchain with
      | spent => exact absurd hc (by simp)
      | silent hresult =>
        obtain ⟨rfl, rfl⟩ : i = 0 ∧ _ := by simpa [List.getElem?_singleton] using hc
        rw [hresult]
        exact ⟨[], rfl, .silent, Nat.lt_add_one 1⟩
      | next hresult hrest =>
        obtain ⟨rfl, rfl⟩ : i = 0 ∧ _ := by simpa [List.getElem?_singleton] using hc
        rw [hresult]
        exact ⟨_, rfl, .holds hrest, Nat.lt_add_one _⟩
  | arrives =>
    cases h with
    | silent => exact ⟨[], rfl, .runs (.spent s'), Nat.lt_add_one 0⟩
    | holds hrest => exact ⟨_, rfl, .waits hrest, Nat.lt_add_one _⟩
  | handles hm =>
    obtain ⟨rest, hqueue, rfl, rfl⟩ := step_eq_some.1 hm
    cases h with
    | runs => exact (List.cons_ne_nil _ _ hqueue.symm).elim
    | waits hrest =>
      obtain ⟨rfl, rfl⟩ := List.cons.inj hqueue
      exact ⟨_, rfl, .runs hrest, owed_dispatch_lt ..⟩

/-- A run goes on in the chain, and it is no longer than the chain lets it be. -/
theorem stands_of_history (h : Stands perform update s' o ms) (hrun : History update o es o')
    (hown : ∀ e ∈ es, e.IsOwn perform) :
    ∃ rest, ms = es.flatMap Event.handled ++ rest ∧ Stands perform update s' o' rest ∧
      es.length + o'.owed rest.length ≤ o.owed ms.length := by
  induction hrun with
  | nil => exact ⟨ms, rfl, h, Nat.le_of_eq (Nat.zero_add _)⟩
  | @snoc es e _ _ _ hmove ih =>
    obtain ⟨rest, hms, hstands, hlength⟩ := ih fun e he => hown e (List.mem_append_left _ he)
    obtain ⟨rest', hrest, hnext, hless⟩ := stands_of_move hstands hmove (hown e (by simp))
    refine ⟨rest', ?_, hnext, ?_⟩
    · rw [hms, hrest, List.flatMap_append, List.flatMap_singleton, List.append_assoc]
    · rw [List.length_append, List.length_singleton]
      omega

/-- A chain is over at an idle loop, and before that the loop can move. -/
theorem spent_or_move_of_stands (h : Stands perform update s' o ms) :
    (ms = [] ∧ o = ⟨s', {}, none⟩) ∨
      (o ≠ ⟨o.state, {}, none⟩ ∧ ∃ e o', Move update o e o' ∧ e.IsOwn perform) := by
  cases h with
  | @runs s c ms hchain =>
    cases hchain with
    | spent => exact .inl ⟨rfl, rfl⟩
    | silent => exact .inr ⟨nofun, _, _, .leaves (i := 0) _ rfl, rfl⟩
    | next => exact .inr ⟨nofun, _, _, .leaves (i := 0) _ rfl, rfl⟩
  | silent => exact .inr ⟨nofun, _, _, .arrives _ _ _, trivial⟩
  | holds => exact .inr ⟨nofun, _, _, .arrives _ _ _, trivial⟩
  | waits => exact .inr ⟨nofun, _, _, .handles rfl, trivial⟩

/-- A message loop that is given a command and nothing else handles messages
of its chain, however it runs.  It cannot go on for ever, and while there are
messages left it does not stand still. -/
theorem history_of_chain (h : Timed.Chain perform update s c ms s')
    (hrun : History update ⟨s, dispatch {} c, none⟩ es o) (hown : ∀ e ∈ es, e.IsOwn perform) :
    es.flatMap Event.handled <+: ms ∧ es.length ≤ 3 * ms.length + 2 ∧
      ((es.flatMap Event.handled = ms ∧ o = ⟨s', {}, none⟩) ∨
        (o ≠ ⟨o.state, {}, none⟩ ∧ ∃ e o', Move update o e o' ∧ e.IsOwn perform)) := by
  have hstart : Stands perform update s' ⟨s, dispatch {} c, none⟩ ms := .runs h
  obtain ⟨rest, hms, hstands, hlength⟩ := stands_of_history hstart hrun hown
  refine ⟨⟨rest, hms.symm⟩, ?_, ?_⟩
  · have hcommand : c.toList.length ≤ 1 := Option.length_toList_le
    have howed : (⟨s, dispatch {} c, none⟩ : Moment σ α κ).owed ms.length =
        3 * ms.length + 2 * c.toList.length := rfl
    omega
  · rcases spent_or_move_of_stands hstands with ⟨rfl, hspent⟩ | hmove
    · exact .inl ⟨(hms.trans (List.append_nil _)).symm, hspent⟩
    · exact .inr hmove

/-- A wait for the end of a chain ends with all its messages handled. -/
theorem handled_of_chain (h : Timed.Chain perform update s c ms s')
    (hrun : RunsUntil update (fun _ => false) ⟨s, dispatch {} c, none⟩ es o)
    (hown : ∀ e ∈ es, e.IsOwn perform) : es.flatMap Event.handled = ms ∧ o = ⟨s', {}, none⟩ := by
  obtain ⟨hheld, hends⟩ := held_of_runsUntil hrun
  obtain ⟨t, l, held⟩ := o
  obtain rfl : held = none := hheld
  obtain rfl : l = {} := isIdle_iff.1 (hends.resolve_left Bool.false_ne_true)
  obtain ⟨-, -, hspent | ⟨hidle, -⟩⟩ := history_of_chain h (history_of_runsUntil hrun) hown
  · exact hspent
  · exact absurd rfl hidle

end Loop

/-! ## Timed loops -/

namespace Timed

variable {perform : Performance α κ} {update : Loop.Update σ α κ} {s s' : σ} {c : Option κ}
  {m : α} {ms : List α}

/-- The time at which a command that was started alone ends. -/
def endOf (perform : Performance α κ) (now : Float) (c : κ) : Float :=
  if now < now + perform.seconds c then now + perform.seconds c else now

/-- A command that was started alone ends, and its message is handled. -/
theorem step_dispatch (perform : Performance α κ) (update : Loop.Update σ α κ) (s : σ)
    (now : Float) (c : κ) :
    step perform update s (dispatch perform { now := now } (some c)) =
      match messageOf (perform.result c) with
      | none => (none, s, { now := endOf perform now c })
      | some m => (some m, (update s m).1,
          dispatch perform { now := endOf perform now c } (update s m).2) := by
  have hawait : await perform (dispatch perform { now := now } (some c)) =
      { now := endOf perform now c, loop := ⟨(messageOf (perform.result c)).toList, []⟩ } := rfl
  rw [step, hawait]
  cases messageOf (perform.result c) with
  | none => rfl
  | some m => rfl

/-- A timed loop that waits for ever handles the messages of a chain and ends
idle. -/
theorem runUntil_of_chain (h : Chain perform update s c ms s') {fuel : Nat}
    (hfuel : ms.length < fuel) (seen : List α) (now : Float) :
    ∃ later, runUntil perform (noting update) (fun _ => false) fuel (s, seen)
      (dispatch perform { now := now } c) = ((s', seen ++ ms), { now := later }) := by
  induction h generalizing fuel seen now with
  | spent s =>
    obtain ⟨fuel, rfl⟩ := Nat.exists_eq_succ_of_ne_zero (Nat.ne_zero_of_lt hfuel)
    rw [List.append_nil]
    exact ⟨now, rfl⟩
  | @silent s c hc =>
    obtain ⟨fuel, rfl⟩ := Nat.exists_eq_succ_of_ne_zero (Nat.ne_zero_of_lt hfuel)
    have hstep := step_dispatch perform (noting update) (s, seen) now c
    rw [hc] at hstep
    refine ⟨endOf perform now c, ?_⟩
    rw [runUntil, if_neg Bool.false_ne_true, hstep, List.append_nil]
    rfl
  | @next s s' c m ms hc _ ih =>
    obtain ⟨fuel, rfl⟩ := Nat.exists_eq_succ_of_ne_zero (Nat.ne_zero_of_lt hfuel)
    have hstep := step_dispatch perform (noting update) (s, seen) now c
    rw [hc] at hstep
    obtain ⟨later, hruns⟩ := ih (Nat.lt_of_succ_lt_succ hfuel) (seen ++ [m]) (endOf perform now c)
    refine ⟨later, ?_⟩
    rw [runUntil, if_neg Bool.false_ne_true, hstep, ← List.singleton_append, ← List.append_assoc]
    exact hruns

/-- A plain loop and a message loop run a chain of commands alike.  Both hand
the messages of the chain to the handler, each once and in order; the plain loop
counts them, and the message loop ends idle.  This holds of a timed loop and of
every way in which a loop that is given nothing else may run: it makes a bounded
number of moves, and it can make one until it is idle. -/
theorem drives_alike (h : Chain perform update s c ms s') {fuel : Nat} (hfuel : ms.length < fuel)
    (now : Float) :
    (∃ t, drive perform (noting update) fuel 0 (s, []) { now := now } c =
      (.ok ms.length, (s', ms), t)) ∧
    (∃ t, runUntil perform (noting update) (fun _ => false) fuel (s, [])
      (dispatch perform { now := now } c) = ((s', ms), t) ∧ t.loop.isIdle = true) ∧
    (∀ es o, Loop.RunsUntil update (fun _ => false) ⟨s, Loop.dispatch {} c, none⟩ es o →
      (∀ e ∈ es, e.IsOwn perform) → es.flatMap Loop.Event.handled = ms ∧ o = ⟨s', {}, none⟩) ∧
    ∀ es o, Loop.History update ⟨s, Loop.dispatch {} c, none⟩ es o →
      (∀ e ∈ es, e.IsOwn perform) →
      es.flatMap Loop.Event.handled <+: ms ∧ es.length ≤ 3 * ms.length + 2 ∧
        ((es.flatMap Loop.Event.handled = ms ∧ o = ⟨s', {}, none⟩) ∨
          (o ≠ ⟨o.state, {}, none⟩ ∧ ∃ e o', Loop.Move update o e o' ∧ e.IsOwn perform)) := by
  refine ⟨?_, ?_, fun es o hrun hown => Loop.handled_of_chain h hrun hown,
    fun es o hrun hown => Loop.history_of_chain h hrun hown⟩
  · obtain ⟨t, hdrive⟩ := drive_of_chain h hfuel 0 [] { now := now }
    rw [Nat.zero_add] at hdrive
    exact ⟨t, hdrive⟩
  · obtain ⟨later, hruns⟩ := runUntil_of_chain h hfuel [] now
    exact ⟨{ now := later }, hruns, rfl⟩

/-- Commands that take a second.  Two of them yield what they are asked for. -/
def echoing : Performance Nat Nat :=
  { seconds := fun _ => 1
    result := fun c => .ok (if c < 2 then some c else none) }

theorem chain_echoing : Chain echoing Loop.tally [] (some 0) [0, 1] [0, 1] :=
  .next rfl (.next rfl (.silent rfl))

theorem drives_alike_echoing :
    (∃ t, drive echoing (noting Loop.tally) 3 0 ([], []) { now := 5 } (some 0) =
      (.ok 2, ([0, 1], [0, 1]), t)) ∧
    (∃ t, runUntil echoing (noting Loop.tally) (fun _ => false) 3 ([], [])
      (dispatch echoing { now := 5 } (some 0)) = (([0, 1], [0, 1]), t) ∧ t.loop.isIdle = true) :=
  have halike := drives_alike chain_echoing (by decide) 5
  ⟨halike.1, halike.2.1⟩

end Timed
end Intake
