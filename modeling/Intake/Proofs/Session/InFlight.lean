import Intake.Proofs.Session.Office

/-!
# Work in flight

While a session is open there is at most one piece of work for it under
way, and that piece is for the step at which the session stands.

There are four groups.

* Work.  `Works` bounds the work for one session among all that is under
  way, and fixes the step it is for.
* Invariant.  `Sound` is the invariant of an office.  With `whole` it also
  says that no work has been lost.
* Moves.  `sound_open`, `sound_proceed` and `sound_handle` preserve it.
* Results.  `sound_of_reaches` lifts the invariant to runs; every session of
  a run is coherent, and when no cancellation is reported that was not
  fired and no caller is given up, exactly one piece of work is in flight
  until the session is done.
-/

namespace Intake

/-! ## Work -/

/-- The step the work is for, and how much of it there is: none when there
is no step, and otherwise at most one piece.  With `whole` it is exactly
one. -/
structure Works (whole : Prop) (items : List Task) (number : Nat) (k? : Option LayerKind) :
    Prop where
  le : items.countP (fun task => task.owner? = some number) ≤ k?.toList.length
  ge : whole → k?.toList.length ≤ items.countP fun task => task.owner? = some number
  layer : ∀ task ∈ items, task.owner? = some number → task.layer? = k?

/-- Nothing is under way for a session. -/
def Idle (items : List Task) (number : Nat) : Prop := ∀ task ∈ items, task.owner? ≠ some number

section Work

variable {whole : Prop} {items : List Task} {number : Nat} {k? : Option LayerKind} {task : Task}

theorem countP_eq_zero_of_idle (h : Idle items number) :
    items.countP (fun task => task.owner? = some number) = 0 := by
  rw [List.countP_eq_zero]
  intro task htask
  simpa using h task htask

theorem Works.perm {items' : List Task} (h : Works whole items number k?)
    (hperm : items.Perm items') : Works whole items' number k? := by
  refine ⟨?_, ?_, fun task htask => h.layer task (hperm.mem_iff.2 htask)⟩
  · rw [← hperm.countP_eq]
    exact h.le
  · rw [← hperm.countP_eq]
    exact h.ge

theorem works_none_iff_idle : Works whole items number none ↔ Idle items number := by
  constructor
  · intro h task htask howner
    have hpos : 0 < items.countP fun task => task.owner? = some number :=
      List.countP_pos_iff.2 ⟨task, htask, by simpa using howner⟩
    have hle := h.le
    simp only [Option.toList_none, List.length_nil] at hle
    omega
  · intro h
    refine ⟨?_, fun _ => Nat.zero_le _, fun task htask howner => absurd howner (h task htask)⟩
    rw [countP_eq_zero_of_idle h]
    exact Nat.zero_le _

/-- Work for others does not count. -/
theorem works_cons_of_ne (h : task.owner? ≠ some number) :
    Works whole (task :: items) number k? ↔ Works whole items number k? := by
  have hcount : (task :: items).countP (fun task => task.owner? = some number) =
      items.countP fun task => task.owner? = some number := by
    rw [List.countP_cons_of_neg (by simpa using h)]
  constructor
  · intro hw
    refine ⟨?_, ?_, fun t ht => hw.layer t (List.mem_cons_of_mem _ ht)⟩
    · rw [← hcount]
      exact hw.le
    · rw [← hcount]
      exact hw.ge
  · intro hw
    refine ⟨?_, ?_, ?_⟩
    · rw [hcount]
      exact hw.le
    · rw [hcount]
      exact hw.ge
    · intro t ht howner
      rcases List.mem_cons.1 ht with rfl | ht
      · exact absurd howner h
      · exact hw.layer t ht howner

/-- A session with work in hand has no other work. -/
theorem Works.rest (h : Works whole (task :: items) number k?)
    (howner : task.owner? = some number) :
    Idle items number ∧ ∃ k, k? = some k ∧ task.layer? = some k := by
  have hle := h.le
  rw [List.countP_cons_of_pos (by simpa using howner)] at hle
  have hlayer := h.layer task List.mem_cons_self howner
  cases k? with
  | none =>
    simp only [Option.toList_none, List.length_nil] at hle
    omega
  | some k =>
    simp only [Option.toList_some, List.length_singleton] at hle
    refine ⟨?_, k, rfl, hlayer⟩
    have hzero : items.countP (fun task => task.owner? = some number) = 0 := by omega
    rw [List.countP_eq_zero] at hzero
    intro t ht ht'
    exact hzero t ht (by simpa using ht')

/-- The only piece of work for a session. -/
theorem works_cons_of_idle {k : LayerKind} (h : Idle items number)
    (howner : task.owner? = some number) (hlayer : task.layer? = some k) :
    Works whole (task :: items) number (some k) := by
  have hcount : (task :: items).countP (fun task => task.owner? = some number) = 1 := by
    rw [List.countP_cons_of_pos (by simpa using howner), countP_eq_zero_of_idle h]
  refine ⟨?_, fun _ => ?_, ?_⟩
  · rw [hcount]
    exact le_refl 1
  · rw [hcount]
    exact le_refl 1
  · intro t ht ht'
    rcases List.mem_cons.1 ht with rfl | ht
    · exact hlayer
    · exact absurd ht' (h t ht)

/-- The command of a turn is the only work for the session it goes on
with. -/
theorem works_of_worksOn {t : Turn} (h : t.WorksOn number k?) (hidle : Idle items number) :
    Works whole ((t.command?.map Task.fresh).toList ++ items) number k? := by
  cases k? with
  | none =>
    have hcommand : t.command? = none := h
    rw [hcommand]
    exact works_none_iff_idle.2 hidle
  | some k =>
    obtain ⟨c, hcommand, howner, hlayer⟩ := h
    rw [hcommand]
    exact works_cons_of_idle hidle (congrArg some howner) (congrArg some hlayer)

/-- Work in hand that became other work for the same step. -/
theorem Works.replace {task' : Task} (h : Works whole (task :: items) number k?)
    (howner : task'.owner? = task.owner?) (hlayer : task'.layer? = task.layer?) :
    Works whole (task' :: items) number k? := by
  by_cases hmine : task.owner? = some number
  · obtain ⟨hidle, k, rfl, hk⟩ := h.rest hmine
    exact works_cons_of_idle hidle (howner.trans hmine) (hlayer.trans hk)
  · rw [works_cons_of_ne hmine] at h
    rw [works_cons_of_ne (by rw [howner]; exact hmine)]
    exact h

/-- Work that was lost. -/
theorem Works.lose (h : Works whole (task :: items) number k?)
    (hlost : task.owner? = some number → ¬ whole) : Works whole items number k? := by
  by_cases hmine : task.owner? = some number
  · obtain ⟨hidle, k, rfl, hk⟩ := h.rest hmine
    refine ⟨?_, fun hw => absurd hw (hlost hmine), fun t ht ht' => absurd ht' (hidle t ht)⟩
    rw [countP_eq_zero_of_idle hidle]
    exact Nat.zero_le _
  · exact (works_cons_of_ne hmine).1 h

end Work

/-! ## Invariant -/

/-- What holds of the open session: its number is taken, its cancellation
has not fired, and it stands where its work is. -/
structure Workbench.Attends (w : Workbench) (whole : Prop) (items : List Task) (s : Session) :
    Prop where
  number_le : s.number ≤ w.opened
  unfired : s.number ∉ w.fired
  hasLlm : s.hasLlm = w.clientInUse.isSome
  stands : ∃ k?, s.Stands k? ∧ Works whole items s.number k?

/-- The invariant of an office.  Sessions have numbers that were given out,
and the open one is attended to. -/
structure Workbench.Sound (w : Workbench) (whole : Prop) (items : List Task) : Prop where
  fired_le : ∀ n ∈ w.fired, n ≤ w.opened
  owner_le : ∀ task ∈ items, ∀ n, task.owner? = some n → n ≤ w.opened
  session : ∀ s, w.session = some s → w.Attends whole items s

namespace Workbench

variable {w : Workbench} {whole : Prop} {items : List Task}

/-- The workbench does not change, and what is under way does. -/
theorem Sound.of_works {items' : List Task} (h : w.Sound whole items)
    (howner : ∀ task ∈ items', ∀ n, task.owner? = some n → n ≤ w.opened)
    (hworks : ∀ s k?, w.session = some s → Works whole items s.number k? →
      Works whole items' s.number k?) : w.Sound whole items' := by
  refine ⟨h.fired_le, howner, ?_⟩
  intro s hs
  have hattends := h.session s hs
  obtain ⟨k?, hstands, hbefore⟩ := hattends.stands
  exact ⟨hattends.number_le, hattends.unfired, hattends.hasLlm, k?, hstands,
    hworks s k? hs hbefore⟩

/-- What is under way does not change, and the open session does, but for
its number. -/
theorem Sound.of_frames {w' : Workbench} (h : w.Sound whole items) (hframes : w.Frames w')
    (hsession : ∀ s', w'.session = some s' → ∃ s, w.session = some s ∧ s'.number = s.number ∧
      s'.hasLlm = w.clientInUse.isSome ∧ ∃ k?, s'.Stands k? ∧ Works whole items s.number k?) :
    w'.Sound whole items := by
  refine ⟨?_, ?_, ?_⟩
  · rw [hframes.fired, hframes.opened]
    exact h.fired_le
  · rw [hframes.opened]
    exact h.owner_le
  · intro s' hs'
    obtain ⟨s, hs, hnumber, hllm, k?, hstands, hworks⟩ := hsession s' hs'
    have hattends := h.session s hs
    refine ⟨?_, ?_, ?_, k?, hstands, ?_⟩
    · rw [hframes.opened, hnumber]
      exact hattends.number_le
    · rw [hframes.fired, hnumber]
      exact hattends.unfired
    · rw [hframes.client]
      exact hllm
    · rw [hnumber]
      exact hworks

theorem Sound.perm {items' : List Task} (h : w.Sound whole items) (hperm : items.Perm items') :
    w.Sound whole items' :=
  h.of_works (fun task htask => h.owner_le task (hperm.mem_iff.2 htask))
    fun _ _ _ hworks => hworks.perm hperm

theorem sound_start (store : Option Store) (client : Option ChatClient) (settings : Settings)
    (capabilities : Capabilities) :
    (Office.start store client settings capabilities).bench.Sound whole
      (Office.start store client settings capabilities).items := by
  refine ⟨?_, ?_, ?_⟩
  · intro n hn
    cases hn
  · intro task htask
    cases htask
  · intro s hs
    cases hs

/-! ## Moves -/

/-- Without a session the work that is left belongs to nobody. -/
theorem sound_of_session_eq_none {w' : Workbench} (h : w.Sound whole items)
    (hopened : w'.opened = w.opened) (hfired : ∀ n ∈ w'.fired, n ≤ w.opened)
    (hsession : w'.session = none) : w'.Sound whole items := by
  refine ⟨?_, ?_, ?_⟩
  · rw [hopened]
    exact hfired
  · rw [hopened]
    exact h.owner_le
  · intro s hs
    rw [hsession] at hs
    cases hs

/-- The work that a turn adds is for a session whose number is taken. -/
theorem owner_le_of_worksOn {t : Turn} {number bound : Nat} {k? : Option LayerKind}
    (hworks : t.WorksOn number k?) (hnumber : number ≤ bound) {task : Task}
    (htask : task ∈ (t.command?.map Task.fresh).toList) {n : Nat} (hn : task.owner? = some n) :
    n ≤ bound := by
  cases k? with
  | none =>
    have hcommand : t.command? = none := hworks
    rw [hcommand] at htask
    cases htask
  | some k =>
    obtain ⟨c, hcommand, howner, -⟩ := hworks
    rw [hcommand] at htask
    obtain rfl : task = .fresh c := by simpa using htask
    obtain rfl : c.owner = n := Option.some.inj hn
    omega

/-- A turn goes on with a session that has no other work. -/
theorem sound_continues {t : Turn} {number : Nat} (h : t.Continues w number)
    (hfired : ∀ n ∈ w.fired, n ≤ w.opened)
    (howner : ∀ task ∈ items, ∀ n, task.owner? = some n → n ≤ w.opened)
    (hnumber : number ≤ w.opened) (hunfired : number ∉ w.fired) (hidle : Idle items number) :
    t.bench.Sound whole ((t.command?.map Task.fresh).toList ++ items) := by
  obtain ⟨s, k?, hs, rfl, hllm, hstands, hworks⟩ := h.session
  refine ⟨?_, ?_, ?_⟩
  · rw [h.frames.fired, h.frames.opened]
    exact hfired
  · rw [h.frames.opened]
    intro task htask n hn
    rcases List.mem_append.1 htask with htask | htask
    · exact owner_le_of_worksOn hworks hnumber htask hn
    · exact howner task htask n hn
  · intro s' hs'
    obtain rfl : s = s' := Option.some.inj (hs.symm.trans hs')
    refine ⟨?_, ?_, ?_, k?, hstands, works_of_worksOn hworks hidle⟩
    · rw [h.frames.opened]
      exact hnumber
    · rw [h.frames.fired]
      exact hunfired
    · rw [h.frames.client]
      exact hllm

/-- A turn leaves the open session and its work as they are. -/
theorem sound_leaves {t : Turn} {s : Session} {k? : Option LayerKind} (hw : w.session = some s)
    (hworks : Works whole items s.number k?) (h : t.Leaves w s.number k?)
    (hsound : w.Sound whole items) : t.bench.Sound whole items := by
  obtain ⟨s', hs', hnumber, hllm, hstands⟩ := h.session
  refine hsound.of_frames h.frames fun s'' hs'' => ?_
  obtain rfl : s' = s'' := Option.some.inj (hs'.symm.trans hs'')
  exact ⟨s, hw, hnumber, hllm, k?, hstands, hworks⟩

theorem sound_open (h : w.Sound whole items) (now : Float) (document : Int) (filename : String)
    (data : Text.Utf8.Bytes) (mime text : String) :
    (w.open now document filename data mime text).bench.Sound whole
      (((w.open now document filename data mime text).command?.map Task.fresh).toList ++
        items) := by
  obtain ⟨-, hopened, -, hfired⟩ := frames_cancel w
  have hcancelled : ∀ n ∈ w.cancel.fired, n ≤ w.opened := by
    intro n hn
    rcases hfired n hn with hn | ⟨s, hs, rfl⟩
    · exact h.fired_le n hn
    · exact (h.session s hs).number_le
  rcases open_cases w now document filename data mime text with
    ⟨hframes, hsession, hcommand⟩ | hcontinues
  · rw [hcommand]
    refine sound_of_session_eq_none h (hframes.opened.trans hopened) ?_ hsession
    rw [hframes.fired]
    exact hcancelled
  · refine sound_continues hcontinues ?_ ?_ (le_refl _) ?_ ?_
    · intro n hn
      exact (hcancelled n hn).trans (Nat.le_succ _)
    · intro task htask n hn
      exact (h.owner_le task htask n hn).trans (Nat.le_succ _)
    · intro hn
      have hle := hcancelled _ hn
      omega
    · intro task htask hn
      have hle := h.owner_le task htask _ hn
      omega

/-- A task that is for no session changes nothing. -/
theorem sound_cons {task : Task} (h : w.Sound whole items) (htask : task.owner? = none) :
    w.Sound whole (task :: items) := by
  refine h.of_works ?_ fun s k? _ hworks => ?_
  · intro t ht n hn
    rcases List.mem_cons.1 ht with rfl | ht
    · rw [htask] at hn
      cases hn
    · exact h.owner_le t ht n hn
  · have hne : task.owner? ≠ some s.number := by simp [htask]
    exact (works_cons_of_ne hne).2 hworks

/-- A task goes on as other work for the same step. -/
theorem sound_replace {task task' : Task} (h : w.Sound whole (task :: items))
    (howner : task'.owner? = task.owner?) (hlayer : task'.layer? = task.layer?) :
    w.Sound whole (task' :: items) := by
  refine h.of_works ?_ fun _ _ _ hworks => hworks.replace howner hlayer
  intro t ht n hn
  rcases List.mem_cons.1 ht with rfl | ht
  · exact h.owner_le task List.mem_cons_self n (howner.symm.trans hn)
  · exact h.owner_le t (List.mem_cons_of_mem _ ht) n hn

/-- A task of the open session is lost only where work may get lost. -/
theorem sound_lose {task : Task} (h : w.Sound whole (task :: items))
    (hlost : ∀ s, w.session = some s → task.owner? = some s.number → ¬ whole) :
    w.Sound whole items :=
  h.of_works (fun t ht => h.owner_le t (List.mem_cons_of_mem _ ht))
    fun s _ hs hworks => hworks.lose (hlost s hs)

/-- The open session is told the number of a stream. -/
theorem sound_informed (h : w.Sound whole items) (owner stream : Nat) :
    (w.onSession (Workshop.informed owner stream)).Sound whole items := by
  refine h.of_frames ⟨rfl, rfl, rfl⟩ fun s' hs' => ?_
  obtain ⟨s, hs, rfl⟩ := Option.map_eq_some_iff.1 hs'
  have hattends := h.session s hs
  obtain ⟨k?, hstands, hworks⟩ := hattends.stands
  rw [Workshop.informed]
  split
  · exact ⟨s, hs, rfl, hattends.hasLlm, k?,
      Session.stands_setProgress hstands (some stream), hworks⟩
  · exact ⟨s, hs, rfl, hattends.hasLlm, k?, hstands, hworks⟩

/-- Only in a workshop that reports cancellations of its own or gives its
callers up may work get lost. -/
theorem sound_proceed {s : Workshop} {task : Task} (h : s.bench.Sound whole (task :: items))
    (hcandid : whole → s.Candid) :
    (Workshop.proceed task s).2.bench.Sound whole
      (Office.remains (Workshop.proceed task s).1 ++ items) := by
  have htasks : s.bench.Sound whole (Office.remains (Workshop.proceed task s).1 ++ items) := by
    rcases Office.remains_proceed s task with
      ⟨task', hremains, howner, hlayer⟩ | ⟨hremains, hsilences⟩
    · rw [hremains]
      exact sound_replace h howner hlayer
    · rw [hremains]
      refine sound_lose h fun s' hs' hmine hwhole => ?_
      rcases hsilences s'.number hmine with hfired | hsilent
      · exact (h.session s' hs').unfired (List.contains_iff_mem.1 hfired)
      · exact hsilent (hcandid hwhole)
  rcases Workshop.bench_proceed s task with hbench | ⟨owner, stream, hbench⟩
  · rw [hbench]
    exact htasks
  · rw [hbench]
    exact sound_informed htasks owner stream

/-- A key closes the open session, leaves its work alone, or starts work for
a session that has none. -/
theorem sound_key (h : w.Sound whole items) (now : Float) (k : Key) :
    (w.handle now (.key k)).bench.Sound whole
      (((w.handle now (.key k)).command?.map Task.fresh).toList ++ items) := by
  cases hs : w.session with
  | none =>
    rw [handle_key_of_none hs]
    exact h
  | some s =>
    rw [handle_key_of_some hs]
    have hattends := h.session s hs
    obtain ⟨k?, hstands, hworks⟩ := hattends.stands
    rcases onKey_cases hs hstands hattends.hasLlm now k with hcloses | hleaves | ⟨rfl, hcontinues⟩
    · rw [hcloses.command]
      refine sound_of_session_eq_none h hcloses.opened (fun n hn => ?_) hcloses.session
      rcases hcloses.fired n hn with hn | rfl
      · exact h.fired_le n hn
      · exact hattends.number_le
    · rw [hleaves.command]
      exact sound_leaves hs hworks hleaves h
    · exact sound_continues hcontinues h.fired_le h.owner_le hattends.number_le hattends.unfired
        (works_none_iff_idle.1 hworks)

/-- What is for another session than the open one is dropped. -/
theorem sound_drop {d : Delivery} (h : w.Sound whole items) : (w.drop d).Sound whole items := by
  obtain ⟨hframes, hsession⟩ := drop_frames w d
  refine h.of_frames hframes fun s hs => ?_
  rw [hsession] at hs
  have hattends := h.session s hs
  exact ⟨s, hs, rfl, hattends.hasLlm, hattends.stands⟩

/-- What is delivered is handled: the work in hand is used up, and the
command of the turn takes its place.  Only the end of a reply with a number
too large gives no command where there should be one. -/
theorem sound_handle {d : Delivery} (h : w.Sound whole (.ended (some d) :: items))
    (htame : whole → w.Tame d) (now : Float) :
    (w.handle now d).bench.Sound whole
      (((w.handle now d).command?.map Task.fresh).toList ++ items) := by
  cases howner : d.owner? with
  | none =>
    obtain ⟨k, rfl⟩ := Delivery.eq_key_of_owner?_eq_none howner
    exact sound_key (sound_lose h fun s _ hmine => by cases hmine) now k
  | some owner =>
    by_cases hopen : ∀ s ∈ w.session, s.number ≠ owner
    · rw [handle_of_not_owner now howner hopen]
      refine sound_drop (sound_lose h fun s hs hmine => ?_)
      exact absurd (Option.some.inj (hmine.symm.trans howner)) (hopen s hs)
    · simp only [not_forall, not_not] at hopen
      obtain ⟨s, hs, rfl⟩ := hopen
      have hattends := h.session s hs
      obtain ⟨k?, hstands, hworks⟩ := hattends.stands
      obtain ⟨hidle, k, rfl, hlayer⟩ := hworks.rest howner
      rw [handle_of_owner hs howner]
      rcases take_cases hs hstands hattends.hasLlm howner hlayer now with
        hcontinues | ⟨hwild, hleaves⟩
      · exact sound_continues hcontinues h.fired_le
          (fun task htask => h.owner_le task (List.mem_cons_of_mem _ htask))
          hattends.number_le hattends.unfired hidle
      · have hlost : ¬ whole := fun hwhole => hwild (htame hwhole)
        rw [hleaves.command]
        exact sound_leaves hs (hworks.lose fun _ => hlost) hleaves (sound_lose h fun _ _ _ => hlost)

end Workbench

/-! ## Results -/

namespace Office

variable {whole : Prop} {site : Workshop → Prop} {store : Option Store}
  {client : Option ChatClient} {settings : Settings} {capabilities : Capabilities}

/-- The invariant of an office. -/
def Sound (whole : Prop) (o : Office) : Prop := o.bench.Sound whole o.items

theorem sound_after {o : Office} {t : Turn}
    (h : t.bench.Sound whole ((t.command?.map Task.fresh).toList ++ o.items)) :
    (o.after t).Sound whole := h.perm (items_after o t).symm

theorem sound_activity {o o' : Office} (hcandid : ∀ s, site s → whole → s.Candid)
    (h : o.Sound whole) (hstep : Activity site o o') : o'.Sound whole := by
  cases hstep with
  | opens now document filename data mime text =>
    exact sound_after (Workbench.sound_open h now document filename data mime text)
  | presses k =>
    have hkey : o.bench.Sound whole (.ended (some (.key k)) :: o.items) :=
      Workbench.sound_cons h rfl
    refine hkey.perm ?_
    rw [items_send]
    exact (List.perm_append_singleton _ _).symm
  | @carries i task s htask hbench hsite =>
    obtain ⟨rest, hbefore, hafter⟩ := items_carry htask (Workshop.proceed task s)
    have htasks : s.bench.Sound whole (task :: rest) := by
      rw [hbench]
      exact Workbench.Sound.perm h hbefore
    exact (Workbench.sound_proceed htasks (hcandid s hsite)).perm hafter.symm

theorem sound_step {o o' : Office} (hcandid : ∀ s, site s → whole → s.Candid)
    (h : o.Sound whole) (hstep : Step site o o') : o'.Sound whole := by
  cases hstep with
  | acts hact => exact sound_activity hcandid h hact
  | @handles i d now hd htame =>
    have hitems := Workbench.Sound.perm h (items_without hd)
    exact sound_after (Workbench.sound_handle hitems (fun _ => htame) now)

theorem sound_of_reaches (hcandid : ∀ s, site s → whole → s.Candid) {o : Office}
    (h : Reaches (Step site) (start store client settings capabilities) o) : o.Sound whole := by
  induction h with
  | refl => exact Workbench.sound_start store client settings capabilities
  | tail _ hstep ih => exact sound_step hcandid ih hstep

/-- Every session of every run is coherent, whatever its workers and the
streams of its model do.  Its results may be saved exactly when every step
has done its work. -/
theorem coherent_of_reaches {o : Office} {s : Session}
    (h : Reaches (Step fun _ => True) (start store client settings capabilities) o)
    (hs : o.bench.session = some s) :
    s.Coherent ∧ (s.canAccept = true ↔ ∀ k ∈ s.active, (s.info k).status = .done) := by
  have hsound : o.Sound False := sound_of_reaches (fun _ _ hfalse => hfalse.elim) h
  obtain ⟨k?, hstands, -⟩ := (hsound.session s hs).stands
  have hcoherent := Session.coherent_of_stands hstands
  exact ⟨hcoherent, hcoherent.canAccept_iff⟩

/-- An office with a model and without tools. -/
def quiet : Office := start none (some { model := "m" }) { model := "m" } ⟨false, false, false⟩

/-- The office in which a note was opened: its text is done and the model
is to be asked. -/
def noteOpened : Office := quiet.after (quiet.bench.open 0 1 "a.txt" [] "text/plain" "text")

theorem coherent_noteOpened : ∃ s, noteOpened.bench.session = some s ∧
    s.Coherent ∧ (s.canAccept = true ↔ ∀ k ∈ s.active, (s.info k).status = .done) := by
  refine ⟨_, rfl, ?_⟩
  exact coherent_of_reaches (o := noteOpened)
    (.single (.acts (.opens 0 1 "a.txt" [] "text/plain" "text"))) rfl

/-- A step for which work is in flight runs. -/
theorem running_of_works {s : Session} {items : List Task} {k? : Option LayerKind}
    (hstands : s.Stands k?) (hworks : Works whole items s.number k?) {task : Task}
    (htask : task ∈ items) (howner : task.owner? = some s.number) :
    ∃ k, task.layer? = some k ∧ (s.info k).status = .running := by
  have hlayer := hworks.layer task htask howner
  match k?, hstands, hworks with
  | none, _, hworks => exact absurd howner (works_none_iff_idle.1 hworks task htask)
  | some .ocr, hstands, _ => exact ⟨.ocr, hlayer, hstands.ocr.2⟩
  | some .llm, hstands, _ => exact ⟨.llm, hlayer, hstands.llm.2⟩

theorem length_eq_of_stands {s : Session} {k? : Option LayerKind} (h : s.Stands k?) :
    k?.toList.length = if s.done then 0 else 1 := by
  match k?, h with
  | none, h => rw [h.done]; rfl
  | some .ocr, h => rw [h.done]; rfl
  | some .llm, h => rw [h.done]; rfl

/-- Where no cancellation is reported that was not fired and no caller is given
up, exactly one piece of work is in flight for a session until it is done, and
none afterwards.
The work is for the step that runs, and the model is asked again only when
nothing is in flight. -/
theorem inFlight_of_loopReaches {o : Office} {s : Session}
    (h : Reaches (LoopStep Workshop.Candid) (start store client settings capabilities) o)
    (hs : o.bench.session = some s) :
    o.inFlight s.number = (if s.done then 0 else 1) ∧
      (∀ task ∈ o.items, task.owner? = some s.number →
        ∃ k, task.layer? = some k ∧ (s.info k).status = .running) ∧
      ∀ now c, (o.bench.rerun now).command? = some c → o.inFlight s.number = 0 := by
  have hsound : o.Sound True :=
    sound_of_reaches (fun _ hcandid _ => hcandid) (reaches_of_loopReaches h)
  have hattends := hsound.session s hs
  obtain ⟨k?, hstands, hworks⟩ := hattends.stands
  have hcount : o.inFlight s.number = k?.toList.length := by
    rw [inFlight_eq_countP]
    exact le_antisymm hworks.le (hworks.ge trivial)
  refine ⟨?_, fun task htask howner => running_of_works hstands hworks htask howner, ?_⟩
  · rw [hcount, length_eq_of_stands hstands]
  · intro now c hrerun
    rcases Workbench.rerun_cases hs hstands hattends.hasLlm now with hleaves | ⟨rfl, -⟩
    · rw [hleaves.command] at hrerun
      cases hrerun
    · exact hcount

theorem inFlight_noteOpened : ∃ s, noteOpened.bench.session = some s ∧
    noteOpened.inFlight s.number = (if s.done then 0 else 1) ∧
      (∀ task ∈ noteOpened.items, task.owner? = some s.number →
        ∃ k, task.layer? = some k ∧ (s.info k).status = .running) ∧
      ∀ now c, (noteOpened.bench.rerun now).command? = some c →
        noteOpened.inFlight s.number = 0 := by
  refine ⟨_, rfl, ?_⟩
  exact inFlight_of_loopReaches (.single (.acts (.opens 0 1 "a.txt" [] "text/plain" "text"))) rfl

/-- A workshop whose model reports a cancellation that was not fired. -/
def evasive : Workshop where
  bench := noteOpened.bench
  site := { desk := { replies := [{ answer := .refuses .cancelled }] } }

/-- A call that reports a cancellation of its own ends without a delivery:
the session is not done, and nothing is in flight that could finish it. -/
theorem not_inFlight_of_reported_cancellation :
    ¬ ∀ o s, Reaches (LoopStep fun _ => True) quiet o → o.bench.session = some s →
      o.inFlight s.number = if s.done then 0 else 1 := by
  intro h
  have hopened : Reaches (LoopStep fun _ => True) quiet noteOpened :=
    .single (.acts (.opens 0 1 "a.txt" [] "text/plain" "text"))
  have hcarried := hopened.tail (.acts (.carries evasive (i := 0) rfl rfl trivial))
  have hcount := h _ _ hcarried rfl
  exact Nat.zero_ne_one hcount

end Office
end Intake
