import Intake.Proofs.Session.Owing

/-!
# One prompt

Whatever happens on the premises of a session, in whatever order, its model is
asked nothing but the one prompt that was settled when the session opened.

There are four groups.

* Tasks.  `Task.Fits` says that a task keeps to a brief; what is left of it
  once it was carried on does as well.
* Invariant.  `Premises.Keeps` is the invariant of the premises of a session.
* Steps.  `keeps_step` says that every step preserves it, with one lemma for
  each kind of step.
* Runs.  `keeps_of_reaches` says so of every run.
-/

namespace Intake

/-! ## Tasks -/

/-- A task is for the session, and it asks the model nothing but the one
prompt. -/
structure Task.Fits (task : Task) (b : Brief) : Prop where
  owner : ∀ n, task.owner? = some n → n = b.number
  asks : ∀ owner client messages, task = .fresh (.openReply owner client messages) →
    messages = b.messages

namespace Task

variable {b : Brief} {task task' : Task}

theorem fits_fresh {c : Command} (h : c.Fits b) : (Task.fresh c).Fits b := by
  refine ⟨fun n hn => ?_, fun owner client messages heq => ?_⟩
  · rw [← Option.some.inj hn]
    exact h.owner
  · exact h.asks owner client messages (Task.fresh.inj heq)

theorem fits_key (k : Key) : (Task.ended (some (.key k))).Fits b :=
  ⟨fun _ hn => (by cases hn), fun _ _ _ heq => (by cases heq)⟩

/-- A task that was carried on has begun. -/
theorem proceed_ne_fresh (s : Workshop) (task : Task) (c : Command) :
    (Workshop.proceed task s).1 ≠ .fresh c := by
  have hbegun : ∀ {c' : Command} {reason : Prop} {task' : Task}, c'.Becomes reason task' →
      task' ≠ .fresh c := by
    intro c' reason task' h
    cases h with
    | waits _ _ => exact Task.noConfusion
    | delivers _ _ => exact Task.noConfusion
    | ends _ => exact Task.noConfusion
  cases task with
  | fresh c' => exact hbegun (Workshop.becomes_proceed s (Or.inl rfl))
  | waiting c' => exact hbegun (Workshop.becomes_proceed s (Or.inr rfl))
  | ended d => exact Task.noConfusion

theorem eq_ended_of_owner?_eq_none (h : task.owner? = none) : ∃ d, task = .ended d := by
  cases task with
  | fresh c => cases h
  | waiting c => cases h
  | ended d => exact ⟨d, rfl⟩

theorem eq_of_mem_remains (h : task' ∈ Office.remains task) : task' = task := by
  unfold Office.remains at h
  split at h
  · cases h
  · exact List.mem_singleton.1 h

/-- What is left of a task keeps to the brief. -/
theorem Fits.remains (h : task.Fits b) (s : Workshop)
    (htask : task' ∈ Office.remains (Workshop.proceed task s).1) : task'.Fits b := by
  have hleft := eq_of_mem_remains htask
  refine ⟨fun n hn => ?_, fun owner client messages heq => ?_⟩
  · rcases Office.remains_proceed s task with ⟨left, hremains, howner, -⟩ | ⟨hnone, -⟩
    · rw [hremains, List.mem_singleton] at htask
      rw [htask] at hn
      exact h.owner n (howner.symm.trans hn)
    · rw [hnone] at htask
      cases htask
  · exact absurd (hleft.symm.trans heq) (proceed_ne_fresh s task _)

/-- A task that keeps to the brief asks nothing else. -/
theorem Fits.asked (h : task.Fits b) (s : Workshop) : ∃ asked,
    (Workshop.proceed task s).2.site.desk.requests = s.site.desk.requests ++ asked ∧
      ∀ q ∈ asked, q.messages = b.messages := by
  rcases Workshop.requests_proceed s task with hsame | ⟨owner, client, messages, rfl, q, hq, hasked⟩
  · exact ⟨[], by rw [hsame, List.append_nil], nofun⟩
  · refine ⟨[q], hasked, fun q' hq' => ?_⟩
    rw [List.mem_singleton.1 hq', hq]
    exact h.asks owner client messages rfl

end Task

namespace Workshop

theorem store_proceed (s : Workshop) (task : Task) :
    (proceed task s).2.bench.store = s.bench.store := by
  rcases bench_proceed s task with hbench | ⟨owner, stream, hbench⟩
  · rw [hbench]
  · rw [hbench]
    rfl

/-- The open session learns at most the number of a stream. -/
theorem session_proceed (s : Workshop) (task : Task) {x' : Session}
    (hx' : (proceed task s).2.bench.session = some x') :
    ∃ x, s.bench.session = some x ∧ x.SeemsLike x' := by
  rcases bench_proceed s task with hbench | ⟨owner, stream, hbench⟩
  · rw [hbench] at hx'
    exact ⟨x', hx', .rfl⟩
  · rw [hbench] at hx'
    obtain ⟨x, hx, rfl⟩ := Option.map_eq_some_iff.1 hx'
    refine ⟨x, hx, ?_⟩
    rw [informed]
    split
    · exact ⟨rfl, rfl, rfl, rfl⟩
    · exact .rfl

end Workshop

/-! ## Invariant -/

namespace Premises

/-- While the pages of a session are read, all work for it brings what they
come to. -/
structure ReadsFor (p : Premises) (b : Brief) (x : Session) : Prop where
  reading : x.Reading b
  brings : ∃ outcome, b.outcome = some outcome ∧
    ∀ task ∈ p.office.items, task.owner? = some x.number → p.shop.Brings x outcome task

/-- The premises keep to the brief of a session: nothing is under way but what
keeps to it, and since these requests its model was asked nothing else. -/
structure Keeps (p : Premises) (b : Brief) (earlier : List ChatRequest) : Prop where
  sound : p.office.Sound False
  names : p.shop.bench.knownEntities.1 = b.names
  asked : ∃ asked, p.shop.site.desk.requests = earlier ++ asked ∧ ∀ q ∈ asked, q.messages = b.messages
  tasks : ∀ task ∈ p.office.items, task.Fits b
  session : ∀ x ∈ p.shop.bench.session, x.Fits b ∨ p.ReadsFor b x

variable {p q : Premises} {b : Brief} {earlier : List ChatRequest}

/-- The cancellation of the open session has not fired. -/
theorem Keeps.hasFired (h : p.Keeps b earlier) {x : Session} (hx : x ∈ p.shop.bench.session) :
    p.shop.hasFired x.number = false := by
  have hunfired := (h.sound.session x hx).unfired
  exact Bool.eq_false_iff.2 fun hfired => hunfired (List.contains_iff_mem.1 hfired)

/-- A session keeps its number, and all work is for it. -/
theorem Keeps.owner (h : p.Keeps b earlier) {x : Session} (hx : x ∈ p.shop.bench.session)
    {task : Task} (htask : task ∈ p.office.items) {n : Nat} (hn : task.owner? = some n) :
    x.number = n := by
  rw [(h.tasks task htask).owner n hn]
  rcases h.session x hx with hfits | hreads
  · exact hfits.number
  · exact hreads.reading.number

/-! ## Steps -/

theorem keeps_presses (h : p.Keeps b earlier) (k : Key) :
    Keeps { p with loop := p.loop.send (.key k) } b earlier := by
  have hitems : office { p with loop := p.loop.send (.key k) } =
      { p.office with loop := p.office.loop.send (.key k) } := rfl
  have hmem : ∀ task ∈ (office { p with loop := p.loop.send (.key k) }).items,
      task ∈ p.office.items ∨ task = .ended (some (.key k)) := by
    intro task htask
    rw [hitems, Office.items_send, List.mem_append] at htask
    exact htask.imp_right List.mem_singleton.1
  refine ⟨sound_step h.sound (.presses k), h.names, h.asked, fun task htask => ?_, fun x hx => ?_⟩
  · rcases hmem task htask with hold | rfl
    · exact h.tasks task hold
    · exact Task.fits_key k
  · rcases h.session x hx with hfits | ⟨hreading, outcome, houtcome, hbrings⟩
    · exact Or.inl hfits
    refine Or.inr ⟨hreading, outcome, houtcome, fun task htask howner => ?_⟩
    rcases hmem task htask with hold | rfl
    · exact hbrings task hold howner
    · cases howner

/-- What goes on in the background changes neither the workbench nor the
model. -/
theorem keeps_background (h : p.Keeps b earlier) {shop : Workshop}
    (hbench : shop.bench = p.shop.bench) (hdesk : shop.site.desk = p.shop.site.desk)
    (hbrings : ∀ x outcome task, p.shop.hasFired x.number = false →
      p.shop.Brings x outcome task → shop.Brings x outcome task) :
    Keeps { p with shop := shop } b earlier := by
  have hoffice : office { p with shop := shop } = p.office := by
    rw [office, office, ← hbench]
  refine ⟨?_, ?_, ?_, ?_, fun x hx => ?_⟩
  · rw [hoffice]
    exact h.sound
  · show shop.bench.knownEntities.1 = b.names
    rw [hbench]
    exact h.names
  · show ∃ asked, shop.site.desk.requests = earlier ++ asked ∧ _
    rw [hdesk]
    exact h.asked
  · rw [hoffice]
    exact h.tasks
  · have hx' : x ∈ p.shop.bench.session := by rwa [← hbench]
    rcases h.session x hx' with hfits | ⟨hreading, outcome, houtcome, hall⟩
    · exact Or.inl hfits
    refine Or.inr ⟨hreading, outcome, houtcome, fun task htask howner => ?_⟩
    rw [hoffice] at htask
    exact hbrings x outcome task (h.hasFired hx') (hall task htask howner)

theorem keeps_strides (h : p.Keeps b earlier) :
    Keeps { p with shop := (Workshop.stride p.shop).2 } b earlier := by
  refine keeps_background h rfl (Workshop.desk_eachWorker (fun w site => ?_) p.shop)
    fun x outcome task _ => Workshop.brings_stride
  split
  · exact w.desk_resume _ _ _
  · rfl

theorem keeps_passes (h : p.Keeps b earlier) :
    Keeps { p with shop := (Workshop.pass p.shop).2 } b earlier := by
  refine keeps_background h (bench_pass p.shop) ?_ fun x outcome task _ => Workshop.brings_pass
  rw [Workshop.pass]
  split
  · rfl
  · split
    · rfl
    · exact Worker.desk_resume _ _ _ _

theorem keeps_settles (h : p.Keeps b earlier) :
    Keeps { p with shop := (Workshop.settle p.shop).2 } b earlier := by
  refine keeps_background h ?_ ?_ fun x outcome task hunfired hbrings =>
    Workshop.brings_settle hbrings hunfired
  · show (Workshop.closeStreams (Workshop.haltFired p.shop).2).2.bench = _
    rw [bench_closeStreams]
    rfl
  · refine (Workshop.rests_closeStreams (Workshop.haltFired p.shop).2).2.2.desk.trans
      (Workshop.desk_eachWorker (fun w site => ?_) p.shop)
    split
    · exact w.desk_halt _ _
    · rfl

theorem keeps_ticks (h : p.Keeps b earlier) (seconds : Float) :
    Keeps { p with shop := { p.shop with
      site := { p.shop.site with book := p.shop.site.book.tick seconds } } } b earlier :=
  keeps_background h rfl rfl fun _ _ _ _ hbrings =>
    hbrings.of_rests rfl rfl ⟨rfl, rfl, rfl, rfl, rfl, rfl⟩

/-- A task that is carried on asks nothing but the one prompt.  While the pages
are read it brings what they come to, and what is left of it does. -/
theorem keeps_carries (h : p.Keeps b earlier) {i : Nat} {task : Task}
    (htask : p.loop.running[i]? = some task) : (p.carry i task).Keeps b earlier := by
  obtain ⟨rest, hbefore, hafter⟩ := Office.items_carry (o := p.office) htask
    (Workshop.proceed task p.shop)
  have hmem : task ∈ p.office.items := hbefore.mem_iff.2 List.mem_cons_self
  have hrest : ∀ t ∈ rest, t ∈ p.office.items := fun t ht =>
    hbefore.mem_iff.2 (List.mem_cons_of_mem _ ht)
  have hitems : ∀ t ∈ (p.carry i task).office.items,
      t ∈ Office.remains (Workshop.proceed task p.shop).1 ∨ t ∈ rest := fun t ht =>
    List.mem_append.1 (hafter.mem_iff.1 ht)
  refine ⟨sound_step h.sound (.carries htask), ?_, ?_, fun t ht => ?_, fun x' hx' => ?_⟩
  · rw [← h.names, Workbench.names_knownEntities, Workbench.names_knownEntities,
      ← Workshop.store_proceed p.shop task]
    rfl
  · obtain ⟨asked, hasked, hall⟩ := h.asked
    obtain ⟨new, hnew, hallnew⟩ := (h.tasks task hmem).asked p.shop
    refine ⟨asked ++ new, ?_, fun q hq => ?_⟩
    · rw [← List.append_assoc, ← hasked]
      exact hnew
    · exact (List.mem_append.1 hq).elim (hall q) (hallnew q)
  · rcases hitems t ht with hleft | hold
    · exact (h.tasks task hmem).remains p.shop hleft
    · exact h.tasks t (hrest t hold)
  · obtain ⟨x, hx, hlike⟩ := Workshop.session_proceed p.shop task hx'
    rcases h.session x hx with hfits | ⟨hreading, outcome, houtcome, hall⟩
    · exact Or.inl (hlike.fits hfits)
    · refine Or.inr ⟨hlike.reading hreading, outcome, houtcome, fun t ht howner => ?_⟩
      rw [hlike.number] at howner
      by_cases hmine : task.owner? = some x.number
      · obtain ⟨x'', hx'', -, hleft⟩ :=
          Workshop.brings_proceed (hall task hmem hmine) hx (h.hasFired hx)
        obtain rfl : x'' = x' := Option.some.inj (hx''.symm.trans hx')
        obtain ⟨k?, -, hworks⟩ := (h.sound.session x hx).stands
        have hidle := ((hworks.perm hbefore).rest hmine).1
        exact (hitems t ht).elim (hleft t) fun hold => absurd howner (hidle t hold)
      · have hnone : task.owner? = none := by
          cases howned : task.owner? with
          | none => rfl
          | some n =>
            rw [howned, h.owner hx hmem howned] at hmine
            exact absurd rfl hmine
        obtain ⟨d, rfl⟩ := Task.eq_ended_of_owner?_eq_none hnone
        obtain rfl : x = x' := Option.some.inj (hx.symm.trans hx')
        rcases hitems t ht with hleft | hold
        · rw [Task.eq_of_mem_remains hleft] at howner
          exact absurd howner hmine
        · exact hall t (hrest t hold) howner

/-- A delivery that is handled is used up, and the command of the turn takes
its place. -/
theorem items_handled {i : Nat} {d : Delivery} (hd : p.loop.queue[i]? = some d) :
    ∃ rest, p.office.items.Perm (.ended (some d) :: rest) ∧
      ((p.without i).after (Workshop.handle d)).office.items.Perm
        (((p.shop.bench.handle p.shop.site.book.clock d).command?.map Task.fresh).toList ++ rest) :=
  ⟨(p.office.without i).items, Office.items_without (o := p.office) hd,
    Office.items_after (p.office.without i) (p.shop.bench.handle p.shop.site.book.clock d)⟩

/-- What a turn is to do so that the premises keep to the brief. -/
theorem keeps_handled (h : p.Keeps b earlier) {i : Nat} {d : Delivery}
    (hd : p.loop.queue[i]? = some d)
    (hcommand : ∀ c ∈ (p.shop.bench.handle p.shop.site.book.clock d).command?, c.Fits b)
    (hsession : ∀ x ∈ (p.shop.bench.handle p.shop.site.book.clock d).bench.session,
      x.Fits b ∨ ((p.without i).after (Workshop.handle d)).ReadsFor b x) :
    ((p.without i).after (Workshop.handle d)).Keeps b earlier := by
  obtain ⟨rest, hbefore, hafter⟩ := items_handled hd
  refine ⟨sound_step h.sound (.handles hd), ?_, ?_, fun t ht => ?_, hsession⟩
  · exact (Workbench.names_handle p.shop.bench p.shop.site.book.clock d).trans h.names
  · obtain ⟨asked, hasked, hall⟩ := h.asked
    refine ⟨asked, ?_, hall⟩
    rw [← hasked]
    exact congrArg Desk.requests (Workshop.rests_handle d p.shop).2.desk
  · rcases List.mem_append.1 (hafter.mem_iff.1 ht) with hnew | hold
    · cases hc : (p.shop.bench.handle p.shop.site.book.clock d).command? with
      | none =>
        rw [hc] at hnew
        cases hnew
      | some c =>
        rw [hc] at hnew
        rw [List.mem_singleton.1 hnew]
        exact Task.fits_fresh (hcommand c hc)
    · exact h.tasks t (hbefore.mem_iff.2 (List.mem_cons_of_mem _ hold))

/-- No event is on its way to a session whose pages are not being read. -/
theorem Keeps.ne_progress (h : p.Keeps b earlier) {x : Session} (hx : x ∈ p.shop.bench.session)
    (hfits : x.Fits b) {d : Delivery} (hd : .ended (some d) ∈ p.office.items) (e : Progress) :
    d ≠ .progress x.number e := by
  rintro rfl
  obtain ⟨k?, hstands, hworks⟩ := (h.sound.session x hx).stands
  obtain rfl : some LayerKind.ocr = k? := hworks.layer _ hd rfl
  exact hfits.read hstands.ocr.2

/-- A key leaves a session to the reading of its pages. -/
theorem keeps_key (h : p.Keeps b earlier) {x : Session} (hx : p.shop.bench.session = some x)
    (hreads : p.ReadsFor b x) {i : Nat} {k : Key} (hd : p.loop.queue[i]? = some (.key k)) :
    ((p.without i).after (Workshop.handle (.key k))).Keeps b earlier := by
  obtain ⟨hreading, outcome, houtcome, hall⟩ := hreads
  obtain ⟨hcommand, hlike⟩ :=
    Workbench.readsLike_key hx hreading.open_ p.shop.site.book.clock k
  obtain ⟨rest, hbefore, hafter⟩ := items_handled hd
  rw [hcommand] at hafter
  refine keeps_handled h hd (fun c hc => by cases hcommand.symm.trans hc) fun x' hx' => ?_
  have hlike' := hlike x' hx'
  refine Or.inr ⟨hlike'.reading hreading, outcome, houtcome, fun t ht howner => ?_⟩
  have hold : t ∈ p.office.items :=
    hbefore.mem_iff.2 (List.mem_cons_of_mem _ (hafter.mem_iff.1 ht))
  have hbrings := (hall t hold (hlike'.number ▸ howner)).of_readsLike hlike'
  exact hbrings.of_rests rfl rfl (Workshop.rests_handle (.key k) p.shop).2

/-- An event before the last one leaves the session waiting for the next. -/
theorem keeps_early (h : p.Keeps b earlier) {x : Session} (hx : p.shop.bench.session = some x)
    {outcome : Except Fault Page} (hreading : x.Reading b) (houtcome : b.outcome = some outcome)
    {e : Progress} (howes : p.shop.Owes x outcome) (hdone : e.done = false)
    (hfault : e.fault = none) {i : Nat} (hd : p.loop.queue[i]? = some (.progress x.number e)) :
    ((p.without i).after (Workshop.handle (.progress x.number e))).Keeps b earlier := by
  have hturn : p.shop.bench.handle p.shop.site.book.clock (.progress x.number e) =
      ⟨p.shop.bench.withSession (x.pagesMoved e), .ok (some (.awaitProgress x.number x.progress))⟩ :=
    (Workbench.handle_of_owner hx rfl _).trans
      (Workbench.onProgress_of_early p.shop.bench x hdone hfault _)
  obtain ⟨rest, hbefore, hafter⟩ := items_handled hd
  obtain ⟨k?, -, hworks⟩ := (h.sound.session x hx).stands
  have hidle := ((hworks.perm hbefore).rest rfl).1
  rw [hturn] at hafter
  refine keeps_handled h hd ?_ ?_
  · rw [hturn]
    intro c hc
    obtain rfl := Option.some.inj hc
    exact Command.fits_of_layer hreading.number fun _ _ _ => Command.noConfusion
  · rw [hturn]
    intro x' hx'
    obtain rfl := Option.some.inj hx'
    have howes' : ((p.without i).after (Workshop.handle (.progress x.number e))).shop.Owes x
        outcome := howes.of_rests rfl (Workshop.rests_handle (.progress x.number e) p.shop).2
    have hlike : x.ReadsLike (x.pagesMoved e) := ⟨⟨rfl, rfl, rfl, rfl⟩, rfl, rfl, rfl, rfl⟩
    refine Or.inr ⟨hlike.reading hreading, outcome, houtcome, fun t ht howner => ?_⟩
    rcases List.mem_append.1 (hafter.mem_iff.1 ht) with hnew | hold
    · rw [List.mem_singleton.1 hnew]
      exact .goesOn (howes'.of_readsLike hlike)
    · exact absurd howner (hidle t hold)

/-- Whatever is delivered, the model is asked nothing but the one prompt. -/
theorem keeps_handles (h : p.Keeps b earlier) {i : Nat} {d : Delivery}
    (hd : p.loop.queue[i]? = some d) :
    ((p.without i).after (Workshop.handle d)).Keeps b earlier := by
  have hmem : .ended (some d) ∈ p.office.items :=
    (Office.items_without (o := p.office) hd).mem_iff.2 List.mem_cons_self
  by_cases hfits : ∀ x ∈ p.shop.bench.session, x.Fits b
  · have hturn := Workbench.fits_handle h.names hfits
      (fun x hx e => h.ne_progress hx (hfits x hx) hmem e) p.shop.site.book.clock
    exact keeps_handled h hd hturn.command fun x hx => Or.inl (hturn.session x hx)
  · simp only [not_forall] at hfits
    obtain ⟨x, hx, hunfit⟩ := hfits
    have hreads := (h.session x hx).resolve_left hunfit
    cases howner : d.owner? with
    | none =>
      obtain ⟨k, rfl⟩ := Delivery.eq_key_of_owner?_eq_none howner
      exact keeps_key h hx hreads hd
    | some n =>
      obtain ⟨hreading, outcome, houtcome, hall⟩ := hreads
      have hmine : d.owner? = some x.number := by rw [howner, h.owner hx hmem howner]
      have hbrings := hall _ hmem hmine
      cases hbrings with
      | tells howes hdone hfault => exact keeps_early h hx hreading houtcome howes hdone hfault hd
      | ends hdone hcarries =>
        have hturn := Workbench.fits_onProgress h.names hreading houtcome hdone hcarries
          p.shop.site.book.clock
        have heq := Workbench.handle_of_owner hx hmine p.shop.site.book.clock
        refine keeps_handled h hd ?_ ?_
        · rw [heq]
          exact hturn.command
        · rw [heq]
          exact fun x' hx' => Or.inl (hturn.session x' hx')

theorem keeps_step (h : p.Keeps b earlier) (hstep : Step p q) : q.Keeps b earlier := by
  cases hstep with
  | presses k => exact keeps_presses h k
  | carries htask => exact keeps_carries h htask
  | handles hd => exact keeps_handles h hd
  | strides => exact keeps_strides h
  | passes => exact keeps_passes h
  | settles => exact keeps_settles h
  | ticks seconds => exact keeps_ticks h seconds

/-! ## Runs -/

theorem keeps_of_reaches (h : p.Keeps b earlier) (hrun : p.Reaches q) : q.Keeps b earlier := by
  induction hrun with
  | refl => exact h
  | tail _ hstep ih => exact keeps_step ih hstep

end Premises
end Intake
