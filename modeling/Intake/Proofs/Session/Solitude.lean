import Intake.Proofs.Session.Opening

/-!
# Sessions alone

What became of other sessions makes no difference to the one that is open.
A chronicle in which sessions are replaced and dropped, and in which what was
meant for them arrives later, is set beside a workbench at which nothing but
the one session was ever opened.

There are three groups.

* Events.  `Office.Account` is a chronicle with what each entry is to one
  session; `exists_account` says that there is one of every chronicle.
* Lockstep.  `move_heard` and `move_unheard` say what one entry is to the
  session.  `agrees_of_concerns` is one step of both sides, and
  `agrees_of_account` lifts it to runs.
* Results.  `agrees_of_opens` says that the session begins alike, and
  `solitary_of_chronicle` is the result.
-/

namespace Intake

/-! ## Events -/

/-- What happens to one session. -/
inductive Event where
  /-- Something is delivered to it, or a key is pressed. -/
  | hears (d : Delivery)
  /-- A worker was started for it and its stream has a number. -/
  | informed (stream : Nat)

/-- The turn of a workbench to whose session, which has a number, something
happens. -/
def Workbench.undergo (n : Nat) (w : Workbench) (now : Float) : Event → Turn
  | .hears d => w.handle now (d.addressed n)
  | .informed stream => ⟨w.onSession (Workshop.informed n stream), .ok none⟩

/-- A workbench after all that happened to its session, at whatever times. -/
def Workbench.undergone (n : Nat) (w : Workbench) (told : List (Float × Event)) : Workbench :=
  told.foldl (fun w t => (w.undergo n t.1 t.2).bench) w

/-- What of a happening is for the session of a number: its deliveries, and
every key and call. -/
def Happening.heard? (n : Nat) : Happening → Option Delivery
  | .reruns => some (.key .rerun)
  | .cancels => some (.key .escape)
  | .accepts => some (.key .accept)
  | .handles d => if d.owner? = none ∨ d.owner? = some n then some d else none
  | .opens => none
  | .presses _ => none
  | .carries => none

/-- The session for which a task starts a worker, and the number of the
stream. -/
def Workshop.starts? (s : Workshop) : Task → Option (Nat × Nat)
  | .fresh (.readPages owner _ _ _) =>
    if s.startFault.isNone then some (owner, s.workers.length) else none
  | _ => none

/-- The stream of the session of a number that a task starts. -/
def Workshop.streamFor? (n : Nat) (s : Workshop) (task : Task) : Option Nat :=
  (s.starts? task).bind fun (owner, stream) => if owner = n then some stream else none

namespace Office

/-- One move of an office, and what it is to the session of a number. -/
inductive Concerns (n : Nat) (o : Office) : Entry → Option Event → Office → Prop where
  | heard {e : Entry} {o' : Office} (hmove : Move o e o') (hwhat : e.what ≠ .carries) :
      Concerns n o e ((e.what.heard? n).map .hears) o'
  | carried {i : Nat} {task : Task} (s : Workshop) (htask : o.loop.running[i]? = some task)
      (hbench : s.bench = o.bench) :
      Concerns n o { what := .carries } ((s.streamFor? n task).map .informed)
        (o.carry i (Workshop.proceed task s))

/-- A run of an office with its entries, each with what it is to the session
of a number. -/
inductive Account (n : Nat) (o : Office) : List (Entry × Option Event) → Office → Prop where
  | nil : Account n o [] o
  | snoc {h : List (Entry × Option Event)} {e : Entry} {event? : Option Event} {o' o'' : Office}
      (hrun : Account n o h o') (hmove : Concerns n o' e event? o'') :
      Account n o (h ++ [(e, event?)]) o''

variable {n : Nat} {o o' o'' : Office} {e : Entry} {event? : Option Event}

theorem move_of_concerns (h : Concerns n o e event? o') : Move o e o' := by
  cases h with
  | heard hmove hwhat => exact hmove
  | carried s htask hbench => exact .carries s htask hbench

theorem exists_concerns (n : Nat) (h : Move o e o') : ∃ event?, Concerns n o e event? o' := by
  cases h with
  | carries s htask hbench => exact ⟨_, .carried s htask hbench⟩
  | opens s hwork hbench => exact ⟨_, .heard (.opens s hwork hbench) Happening.noConfusion⟩
  | reruns now => exact ⟨_, .heard (.reruns now) Happening.noConfusion⟩
  | cancels => exact ⟨_, .heard .cancels Happening.noConfusion⟩
  | accepts => exact ⟨_, .heard .accepts Happening.noConfusion⟩
  | presses k => exact ⟨_, .heard (.presses k) Happening.noConfusion⟩
  | handles now hd => exact ⟨_, .heard (.handles now hd) Happening.noConfusion⟩

theorem chronicle_of_account {h : List (Entry × Option Event)} (hrun : Account n o h o') :
    Chronicle o (h.map (·.1)) o' := by
  induction hrun with
  | nil => exact .nil
  | snoc _ hmove ih =>
    rw [List.map_append]
    exact ih.snoc (move_of_concerns hmove)

/-- Of every run there is an account. -/
theorem exists_account (n : Nat) {h : List Entry} (hrun : Chronicle o h o') :
    ∃ account, account.map (·.1) = h ∧ Account n o account o' := by
  induction hrun with
  | nil => exact ⟨[], rfl, .nil⟩
  | snoc _ hmove ih =>
    obtain ⟨account, rfl, hrun⟩ := ih
    obtain ⟨event?, hconcerns⟩ := exists_concerns n hmove
    exact ⟨_, by rw [List.map_append]; rfl, hrun.snoc hconcerns⟩

/-! ## Lockstep -/

/-- The session of a number is open. -/
def IsOpen (o : Office) (n : Nat) : Prop := ∃ s, o.bench.session = some s ∧ s.number = n

variable {h : List Entry} {account : List (Entry × Option Event)}

theorem IsOpen.number (hopen : o.IsOpen n) : ∀ s ∈ o.bench.session, s.number = n := by
  obtain ⟨s, hs, rfl⟩ := hopen
  intro s' hs'
  obtain rfl := Option.some.inj (hs.symm.trans hs')
  rfl

/-- A session that is open after a move and had its number before it was
open before it. -/
theorem isOpen_of_move (hrecorded : o.Recorded h) (hmove : Move o e o')
    (hle : n ≤ o.bench.opened) (hopen : o'.IsOpen n) : o.IsOpen n := by
  obtain ⟨s, hs, rfl⟩ := hopen
  rcases (recorded_move hrecorded hmove).2.number s hs with ⟨s', hs', hnumber⟩ | hlt
  · exact ⟨s', hs', hnumber.symm⟩
  · omega

/-- What is for the session, or a key, is handled at the workbench. -/
theorem move_heard (hmove : Move o e o') {d : Delivery} (hd : e.what.heard? n = some d) :
    (∀ owner, d.owner? = some owner → owner = n) ∧ ∃ now,
      o'.bench = (o.bench.handle now d).bench ∧ e.command = (o.bench.handle now d).command? := by
  have hkey : ∀ k : Key, ∀ owner, (Delivery.key k).owner? = some owner → owner = n := by
    intro k owner howner
    cases howner
  cases hmove with
  | opens s hwork hbench => cases hd
  | reruns now =>
    cases hd
    refine ⟨hkey _, now, ?_⟩
    rw [← Workbench.rerun_eq_handle]
    exact ⟨rfl, rfl⟩
  | cancels =>
    cases hd
    exact ⟨hkey _, 0, Workbench.cancel_eq_handle _ _, (Workbench.command?_escape _ _).symm⟩
  | accepts =>
    cases hd
    exact ⟨hkey _, 0, Workbench.accept_eq_handle _ _, (Workbench.command?_accept _ _).symm⟩
  | presses k => cases hd
  | carries s htask hbench => cases hd
  | @handles i d' now hqueue =>
    simp only [Happening.heard?] at hd
    split at hd
    · rename_i howner
      obtain rfl := Option.some.inj hd
      refine ⟨fun owner hmine => ?_, now, rfl, rfl⟩
      rcases howner with hnone | hn
      · cases hnone.symm.trans hmine
      · exact Option.some.inj (hmine.symm.trans hn)
    · cases hd

/-- What is not for the session leaves it as it is, as long as it stays
open. -/
theorem move_unheard (hsound : o.Sound False) (hmove : Move o e o')
    (hd : e.what.heard? n = none) (hwhat : e.what ≠ .carries) (hopen : o.IsOpen n)
    (hopen' : o'.IsOpen n) : e.command = none ∧ o'.bench.erased n = o.bench.erased n := by
  cases hmove with
  | opens s hwork hbench =>
    obtain ⟨w, hprepares, hturn⟩ := Workshop.opens_cases hwork s
    rw [hbench] at hprepares
    obtain ⟨-, hopened⟩ := hprepares.spares
    obtain ⟨x, hx, hn⟩ := hopen
    have hle := (hsound.session x hx).number_le
    obtain ⟨x', hx', hn'⟩ := hopen'
    rcases hturn with ⟨fault, hturn⟩ | ⟨now, document, filename, data, mime, text, hturn⟩
    · rw [hturn]
      obtain ⟨capabilities, records, rfl⟩ := hprepares
      exact ⟨rfl, rfl⟩
    · rw [hturn] at hx'
      rcases Workbench.open_cases w now document filename data mime text with
        ⟨-, hnone, -⟩ | hcontinues
      · cases hnone.symm.trans hx'
      · obtain ⟨x'', -, hx'', hnumber, -⟩ := hcontinues.session
        obtain rfl := Option.some.inj (hx''.symm.trans hx')
        omega
  | reruns now => cases hd
  | cancels => cases hd
  | accepts => cases hd
  | presses k => exact ⟨rfl, rfl⟩
  | carries s htask hbench => exact absurd rfl hwhat
  | @handles i d now hqueue =>
    simp only [Happening.heard?] at hd
    split at hd
    · cases hd
    · rename_i hforeign
      obtain ⟨hnone, hne⟩ := not_or.1 hforeign
      obtain ⟨owner, howner⟩ := Option.ne_none_iff_exists'.1 hnone
      have hdrops := Workbench.erased_handle_of_foreign now hopen.number howner
        fun heq => hne (howner.trans (congrArg some heq))
      exact ⟨hdrops.2.2, hdrops.1⟩

end Office

namespace Workshop

/-- A task that is carried on tells of a stream when it starts a worker, and
changes nothing at the workbench otherwise. -/
theorem bench_proceed_eq (s : Workshop) (task : Task) :
    (proceed task s).2.bench = match s.starts? task with
      | some (owner, stream) => s.bench.onSession (informed owner stream)
      | none => s.bench := by
  cases task with
  | ended d => rfl
  | waiting c => exact bench_poll s c
  | fresh c =>
    cases c with
    | readPages owner data mime cap =>
      show (begin _ s).2.bench = _
      rw [begin_readPages, starts?]
      cases s.startFault with
      | some e => rfl
      | none => exact bench_poll _ _
    | openReply owner client messages =>
      show ((if s.hasFired owner then _ else _ : StateM Workshop Task) s).2.bench = _
      split
      · rfl
      · exact bench_openReply s owner client messages
    | awaitProgress owner stream => exact bench_poll s _
    | awaitChunk owner stream => exact bench_poll s _

end Workshop

namespace Workbench

variable {m n : Nat} {w w' : Workbench}

theorem onSession_of_none (hs : w.session = none) (f : Session → Session) :
    w.onSession f = w := by
  rw [onSession, hs, Option.map_none, ← hs]

theorem erased_informed (hw : w'.erased m = w.erased n) (hs : ∀ s ∈ w.session, s.number = n)
    (hs' : ∀ s ∈ w'.session, s.number = m) (stream : Nat) :
    (w'.onSession (Workshop.informed m stream)).erased m =
      (w.onSession (Workshop.informed n stream)).erased n := by
  rcases sessions_of_erased hw with ⟨hnone, hnone'⟩ | ⟨s, s', hsome, hsome', h⟩
  · rw [onSession_of_none hnone, onSession_of_none hnone']
    exact hw
  · rw [onSession, onSession, hsome, hsome', Option.map_some, Option.map_some,
      Workshop.informed, Workshop.informed, if_pos (hs s hsome), if_pos (hs' s' hsome')]
    refine erased_withSession hw ?_
    show { s'.erased with progress := some stream } = { s.erased with progress := some stream }
    rw [h]

theorem onSession_informed_of_ne (hs : ∀ s ∈ w.session, s.number = n) {owner : Nat}
    (hne : owner ≠ n) (stream : Nat) : w.onSession (Workshop.informed owner stream) = w := by
  cases hsome : w.session with
  | none => exact onSession_of_none hsome _
  | some s =>
    have hother : ¬ s.number = owner := fun heq => hne (heq.symm.trans (hs s hsome))
    rw [onSession, hsome, Option.map_some, Workshop.informed, if_neg hother, ← hsome]

theorem staysWith_undergo (hs : ∀ s ∈ w.session, s.number = m) (now : Float) (event : Event) :
    (w.undergo m now event).StaysWith m := by
  cases event with
  | hears d => exact staysWith_handle now hs _
  | informed stream =>
    refine staysWith_of_session hs rfl fun s hmem => ?_
    obtain ⟨s', hs', rfl⟩ := Option.map_eq_some_iff.1 hmem
    refine ⟨s', hs', ?_⟩
    rw [Workshop.informed]
    split
    · rfl
    · rfl

end Workbench

namespace Office

variable {m n : Nat} {o o' : Office} {e : Entry} {h : List Entry}
  {account : List (Entry × Option Event)} {w : Workbench}

/-- What a move is to the open session happens alike at a workbench that
agrees on it. -/
theorem agrees_of_concerns (hopen : o.IsOpen n) (hw : w.erased m = o.bench.erased n)
    (hs : ∀ s ∈ w.session, s.number = m) {event : Event}
    (hmove : Concerns n o e (some event) o') (now : Float) :
    (w.undergo m now event).bench.erased m = o'.bench.erased n ∧
      (w.undergo m now event).command? = e.command.map (·.addressed m) ∧
      ∀ c ∈ e.command, c.owner = n := by
  have hstays := Workbench.staysWith_undergo hs now event
  generalize hevent : some event = event? at hmove
  cases hmove with
  | heard hmove hwhat =>
    obtain ⟨d, hd, rfl⟩ := Option.map_eq_some_iff.1 hevent.symm
    obtain ⟨howner, clock, hbench, hcommand⟩ := move_heard hmove hd
    have hsame := Workbench.erased_handle clock now hw hopen.number hs howner
    rw [hbench, hcommand]
    exact ⟨(congrArg Turn.bench hsame :), Turn.command?_of_erased hsame hstays.command,
      (Workbench.staysWith_handle clock hopen.number d).command⟩
  | @carried i task s htask hbench =>
    obtain ⟨stream, hstream, rfl⟩ := Option.map_eq_some_iff.1 hevent.symm
    rw [Workshop.streamFor?, Option.bind_eq_some_iff] at hstream
    obtain ⟨⟨owner, stream'⟩, hstarts, hmine⟩ := hstream
    dsimp only at hmine
    split at hmine
    · rename_i heq
      obtain rfl := Option.some.inj hmine
      subst heq
      have hcarry : (o.carry i (Workshop.proceed task s)).bench =
          o.bench.onSession (Workshop.informed owner stream') := by
        show (Workshop.proceed task s).2.bench = _
        rw [Workshop.bench_proceed_eq, hstarts, hbench]
      rw [hcarry]
      refine ⟨Workbench.erased_informed hw hopen.number hs stream', rfl, fun c hc => ?_⟩
      cases hc
    · cases hmine

/-- What is nothing to the open session changes nothing about it. -/
theorem keeps_of_concerns (hsound : o.Sound False) (hopen : o.IsOpen n) (hopen' : o'.IsOpen n)
    (hmove : Concerns n o e none o') :
    e.command = none ∧ o'.bench.erased n = o.bench.erased n := by
  generalize hevent : none = event? at hmove
  cases hmove with
  | heard hmove hwhat =>
    exact move_unheard hsound hmove (Option.map_eq_none_iff.1 hevent.symm) hwhat hopen hopen'
  | @carried i task s htask hbench =>
    have hnone := Option.map_eq_none_iff.1 hevent.symm
    refine ⟨rfl, congrArg (Workbench.erased n) ?_⟩
    show (Workshop.proceed task s).2.bench = _
    rw [Workshop.bench_proceed_eq, hbench]
    cases hstarts : s.starts? task with
    | none => rfl
    | some started =>
      rcases started with ⟨owner, stream⟩
      rw [Workshop.streamFor?, hstarts, Option.bind_some] at hnone
      refine Workbench.onSession_informed_of_ne hopen.number (fun heq => ?_) stream
      simp [heq] at hnone

theorem recorded_of_account (hrecorded : o.Recorded h) (hrun : Account n o account o') :
    o'.Recorded (h ++ account.map (·.1)) ∧ o.bench.opened ≤ o'.bench.opened := by
  induction hrun with
  | nil =>
    rw [List.map_nil, List.append_nil]
    exact ⟨hrecorded, le_refl _⟩
  | snoc _ hmove ih =>
    have hmoved := move_of_concerns hmove
    rw [List.map_append, ← List.append_assoc]
    exact ⟨(recorded_move ih.1 hmoved).1, ih.2.trans (spares_move hmoved).2⟩

/-- Set side by side, an office and a workbench that is told of what concerns
one session agree on that session as long as it is open. -/
theorem agrees_of_account (hrecorded : o.Recorded h) (hle : n ≤ o.bench.opened)
    (hw : w.erased m = o.bench.erased n) (hs : ∀ s ∈ w.session, s.number = m)
    (hrun : Account n o account o') (hopen : o'.IsOpen n) {told : List (Float × Event)}
    (htold : told.map (·.2) = account.filterMap (·.2)) :
    (w.undergone m told).erased m = o'.bench.erased n ∧
      ∀ s ∈ (w.undergone m told).session, s.number = m := by
  induction hrun generalizing told with
  | nil =>
    rw [List.filterMap_nil, List.map_eq_nil_iff] at htold
    subst htold
    exact ⟨hw, hs⟩
  | @snoc account e event? o₁ o₂ hrun hmove ih =>
    obtain ⟨hrecorded', hopened⟩ := recorded_of_account hrecorded hrun
    have hbefore := isOpen_of_move hrecorded' (move_of_concerns hmove) (hle.trans hopened) hopen
    rw [List.filterMap_append] at htold
    cases event? with
    | none =>
      rw [List.filterMap_cons_none rfl, List.filterMap_nil, List.append_nil] at htold
      rw [(keeps_of_concerns hrecorded'.sound hbefore hopen hmove).2]
      exact ih hbefore htold
    | some event =>
      obtain ⟨earlier, last, rfl, hearlier, hlast⟩ := List.map_eq_append_iff.1 htold
      obtain ⟨⟨now, event'⟩, rfl, rfl⟩ := List.map_eq_singleton_iff.1 hlast
      obtain ⟨hagrees, hnumber⟩ := ih hbefore hearlier
      rw [Workbench.undergone, List.foldl_append]
      exact ⟨(agrees_of_concerns hbefore hagrees hnumber hmove now).1,
        (Workbench.staysWith_undergo hnumber now event').session⟩

end Office

/-! ## Results -/

/-- The workshop with a workbench that knows the same of the world, and at
which no session was opened yet. -/
def Workshop.unvisited (s : Workshop) : Workshop :=
  { s with bench :=
      (Office.start s.bench.store s.bench.client s.bench.settings s.bench.capabilities).bench }

namespace Office

variable {o : Office} {h : List Entry}

/-- A session is opened as if it were the first. -/
theorem agrees_of_opens (hsound : o.Sound False) {s : Workshop} (hbench : s.bench = o.bench)
    {work : StateM Workshop (Except Fault (Option Command))} (hwork : Workshop.Opens work)
    {x : Session} (hopens : (s.turnOf work).bench.session = some x)
    (hnew : o.bench.opened < x.number) :
    (s.unvisited.turnOf work).erased 1 = (s.turnOf work).erased x.number ∧
      (s.unvisited.turnOf work).StaysWith 1 := by
  have hapart : s.Apart s.unvisited := ⟨rfl, rfl, rfl, rfl, rfl⟩
  obtain ⟨w, w', hprepares, hprepares', halike, hturn⟩ := Workshop.apart_turnOf hapart hwork
  rw [hbench] at hprepares
  have hsound' := hprepares.sound hsound
  rcases hturn with ⟨e, hturn, -⟩ | ⟨now, document, filename, data, mime, text, hturn, hturn'⟩
  · rw [hturn] at hopens
    have hle := (hsound'.session x hopens).number_le
    have hopened := hprepares.spares.opened
    omega
  · rw [hturn] at hopens ⊢
    rw [hturn']
    obtain ⟨-, hopened, -, hfired⟩ := Workbench.frames_cancel w
    have hnumber : x.number = w.opened + 1 := by
      rcases Workbench.open_cases w now document filename data mime text with
        ⟨-, hnone, -⟩ | hcontinues
      · cases hnone.symm.trans hopens
      · obtain ⟨x', -, hx', hnumber, -⟩ := hcontinues.session
        obtain rfl := Option.some.inj (hx'.symm.trans hopens)
        exact hnumber
    have hunfired : w.opened + 1 ∉ w.cancel.fired := by
      intro hmem
      rcases hfired _ hmem with hmem | ⟨y, hy, heq⟩
      · have hle := hsound'.fired_le _ hmem
        omega
      · have hle := (hsound'.session y hy).number_le
        omega
    obtain ⟨capabilities, records, rfl⟩ := hprepares'
    have hfresh := Workbench.erased_open halike hunfired List.not_mem_nil now now
      (by rw [hopens]; exact Option.some_ne_none x)
    rw [hnumber]
    exact hfresh

/-- Whatever became of the sessions before it, a session that is opened goes
the way it would have gone as the only one.  From any run of an office let a
session be opened, and let any moves follow.  A workbench at which nothing
was opened before, with the same store, opens the same session and gives the
same command.  When it is told what concerns that session, at whatever
times, then as long as the session is open both agree on it and on the
store, and what concerns it next is answered with the same command and
leaves them agreed. -/
theorem solitary_of_chronicle {store : Option Store} {client? : Option ChatClient}
    {settings : Settings} {capabilities : Capabilities}
    (hrun : Chronicle (.start store client? settings capabilities) h o)
    {s : Workshop} (hbench : s.bench = o.bench)
    {work : StateM Workshop (Except Fault (Option Command))} (hwork : Workshop.Opens work)
    {x : Session} (hopens : (s.turnOf work).bench.session = some x)
    (hnew : o.bench.opened < x.number) :
    ((s.unvisited.turnOf work).bench.erased 1 = (s.turnOf work).bench.erased x.number ∧
      (s.unvisited.turnOf work).command? = (s.turnOf work).command?.map (·.addressed 1)) ∧
    (∀ later o', Chronicle (o.after (s.turnOf work)) later o' → ∃ account,
      account.map (·.1) = later ∧ Account x.number (o.after (s.turnOf work)) account o') ∧
    ∀ account o', Account x.number (o.after (s.turnOf work)) account o' → o'.IsOpen x.number →
      ∀ told : List (Float × Event), told.map (·.2) = account.filterMap (·.2) →
        ((s.unvisited.turnOf work).bench.undergone 1 told).erased 1 =
            o'.bench.erased x.number ∧
          ∀ e event o'', Concerns x.number o' e (some event) o'' → ∀ now,
            let t := ((s.unvisited.turnOf work).bench.undergone 1 told).undergo 1 now event
            t.bench.erased 1 = o''.bench.erased x.number ∧
              t.command? = e.command.map (·.addressed 1) ∧
              ∀ c ∈ e.command, c.owner = x.number := by
  have hrecorded := recorded_of_chronicle (recorded_start store client? settings capabilities) hrun
  obtain ⟨hopened, hstays⟩ := agrees_of_opens hrecorded.sound hbench hwork hopens hnew
  have hbegun : (s.unvisited.turnOf work).bench.erased 1 =
      (s.turnOf work).bench.erased x.number := (congrArg Turn.bench hopened :)
  have hmove : Move o (entry .opens (s.turnOf work)) (o.after (s.turnOf work)) :=
    .opens s hwork hbench
  have hrecorded' := (recorded_move hrecorded hmove).1
  have hle := (hrecorded'.sound.session x hopens).number_le
  refine ⟨⟨hbegun, Turn.command?_of_erased hopened hstays.command⟩,
    fun later o' hlater => exists_account x.number hlater, ?_⟩
  intro account o' haccount hopen told htold
  obtain ⟨hagrees, hnumber⟩ :=
    agrees_of_account hrecorded' hle hbegun hstays.session haccount hopen htold
  exact ⟨hagrees, fun e event o'' hconcerns now =>
    agrees_of_concerns hopen hagrees hnumber hconcerns now⟩

/-- The workshop in which the image is opened again while it is open. -/
def reopening : Workshop := { bench := (gallery.after imageOpened).bench, surveyed := true }

/-- The turn that opens the image again. -/
def imageReopened : Turn := reopening.turnOf (Workshop.open 1 "a.png" [1] "image/png" "")

/-- The office in which the image was opened twice. -/
def reopened : Office := (gallery.after imageOpened).after imageReopened

/-- A workshop in which no worker can be started. -/
def stranded : Workshop where
  bench := reopened.bench
  startFault := some (.plain .os "no worker")

/-- The office in which the worker of the first session could not be started,
and this was handled while the second session was open. -/
def refusedLate : Office := reopened.serve stranded

theorem solitary_reopened : ∃ x account,
    imageReopened.bench.session = some x ∧ x.number = 2 ∧
    Account 2 reopened account refusedLate ∧ refusedLate.IsOpen 2 ∧
    account.filterMap (·.1.heard?) = [.progress 1 (.failed (.plain .os "no worker"))] ∧
    account.filterMap (·.2) = [] ∧
    (reopening.unvisited.turnOf (Workshop.open 1 "a.png" [1] "image/png" "")).bench.erased 1 =
      refusedLate.bench.erased 2 := by
  have hrun : Chronicle gallery _ (gallery.after imageOpened) :=
    Chronicle.nil.snoc (.opens _ (.given 1 "a.png" [1] "image/png" "") rfl)
  have hbench : reopening.bench = (gallery.after imageOpened).bench := rfl
  have hwork : Workshop.Opens (Workshop.open 1 "a.png" [1] "image/png" "") := .given _ _ _ _ _
  have hnumber : imageReopened.bench.session.map (·.number) = some 2 := by decide +kernel
  obtain ⟨x, hx, hn⟩ := Option.map_eq_some_iff.1 hnumber
  have hnew : (gallery.after imageOpened).bench.opened < x.number := by
    rw [hn]
    decide +kernel
  obtain ⟨-, -, hagrees⟩ := solitary_of_chronicle hrun hbench hwork hx hnew
  rw [hn] at hagrees
  have hrunning : reopened.loop.running[0]? =
      some (.fresh (.readPages 1 [1] "image/png" gallery.bench.settings.maxPages)) := rfl
  have hqueue : (reopened.carry 0 (Workshop.proceed (.fresh (.readPages 1 [1] "image/png"
      gallery.bench.settings.maxPages)) stranded)).loop.queue[0]? =
        some (.progress 1 (.failed (.plain .os "no worker"))) := rfl
  have haccount : Account 2 reopened _ refusedLate :=
    (Account.nil.snoc (.carried stranded hrunning rfl)).snoc
      (.heard (.handles 0 hqueue) Happening.noConfusion)
  have hopen : refusedLate.IsOpen 2 :=
    Option.map_eq_some_iff.1 (by decide +kernel : refusedLate.bench.session.map (·.number) = some 2)
  exact ⟨x, _, hx, hn, haccount, hopen, rfl, rfl, (hagrees _ _ haccount hopen [] rfl).1⟩

end Office
end Intake
