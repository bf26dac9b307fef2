import Intake.Proofs.Layer.Protocol

/-!
# Plans that heed the cancellation

A plan that is carried out while the cancellation fires ends with the
cancellation, with one exception.  When the cancellation fires during the last
program, and this program ends by itself all the same, nothing looks at the
cancellation any more.

There are three groups.

* Plans.  `Plan.last?` is the last event of a plan with nothing before it.
  `Plan.Heeds` says that a plan gives up with the cancellation wherever one of
  its programs does; `Heeds.complete_of_fired` and `Heeds.told_of_fired` are
  what is left of such a plan.
* Programs.  `Shell.run_of_fires` says how a program ends that runs while the
  cancellation fires.
* Carrying out.  `Plan.Slips` is the exception, and `Heeds.accounts` says that
  there is no other.
-/

namespace Intake

/-! ## Plans -/

namespace Plan

/-- The last event of a plan that has no other event and no program before
it. -/
def last? : Plan → Option Progress
  | finish last => some last
  | note _ _ next => next.last?
  | emit _ _ => none
  | run _ _ => none

/-- Where a program is given up for the cancellation, a plan ends with it, and
a program that ends by itself is no cancellation. -/
inductive Heeds : Plan → Prop where
  | finish (last : Progress) : Heeds (.finish last)
  | emit {p : Progress} {next : Plan} (h : Heeds next) : Heeds (.emit p next)
  | note {level : Level} {text : String} {next : Plan} (h : Heeds next) :
      Heeds (.note level text next)
  | run {r : Request} {next : Except Fault Yield → Plan}
      (hcancelled : next (.error .cancelled) = stop .cancelled)
      (hended : ∀ script : Script, ∀ last ∈ (next (script.result r)).last?,
        last.fault ≠ some .cancelled)
      (h : ∀ ended, Heeds (next ended)) : Heeds (.run r next)

theorem result_ne_cancelled {script : Script} {r : Request} {e : Fault}
    (h : script.result r = .error e) : e ≠ .cancelled := by
  rw [Script.result] at h
  split at h
  · cases h
  · obtain rfl := Except.error.inj h
    cases r.failure <;> exact Fault.noConfusion

theorem pageOf_ne_cancelled {output : Text.Utf8.Bytes} {e : Fault}
    (h : PageReading.pageOf output = .error e) : e ≠ .cancelled := by
  rw [PageReading.pageOf] at h
  split at h
  · cases h
  · obtain rfl := Except.error.inj h
    intro heq
    cases heq

/-- An image that is read to its end does not give a cancellation. -/
theorem given_ne_cancelled {script : Script} {r : Request} {e : Fault}
    (h : ((script.result r).bind fun made => PageReading.pageOf made.output) = .error e) :
    e ≠ .cancelled := by
  cases hresult : script.result r with
  | error e' =>
    rw [hresult] at h
    obtain rfl := Except.error.inj h
    exact result_ne_cancelled hresult
  | ok made =>
    rw [hresult] at h
    exact pageOf_ne_cancelled h

theorem heeds_stop (e : Fault) : (stop e).Heeds := .note (.finish _)

theorem fault_of_last?_stop {e : Fault} (he : e ≠ .cancelled) :
    ∀ last ∈ (stop e).last?, last.fault ≠ some .cancelled := by
  intro last hlast heq
  obtain rfl := Option.some.inj hlast
  exact he (Option.some.inj heq)

theorem fault_of_last?_readImages (total page : Nat) (held : List Page) (images : List String) :
    ∀ last ∈ (readImages total page held images).last?, last.fault ≠ some .cancelled := by
  intro last hlast heq
  cases images with
  | nil =>
    obtain rfl := Option.some.inj hlast
    cases heq
  | cons image rest => cases hlast

theorem heeds_readImages (total : Nat) (images : List String) :
    ∀ (page : Nat) (held : List Page), (readImages total page held images).Heeds := by
  induction images with
  | nil => exact fun page held => .finish _
  | cons image rest ih =>
    refine fun page held => .emit (.run rfl (fun script => ?_) fun ended => ?_)
    · cases hread : (script.result (PageReading.readRequest image)).bind
        fun made => PageReading.pageOf made.output with
      | ok read => exact fault_of_last?_readImages _ _ _ _
      | error e =>
        dsimp only
        split_ifs
        · exact fault_of_last?_readImages _ _ _ _
        · exact fault_of_last?_stop (given_ne_cancelled hread)
    · cases ended.bind fun made => PageReading.pageOf made.output with
      | ok read => exact ih _ _
      | error e =>
        dsimp only
        split_ifs
        · exact .note (ih _ _)
        · exact heeds_stop e

theorem heeds_readPdf (folder : String) (cap : Int) : (readPdf folder cap).Heeds := by
  refine .run rfl (fun script => ?_) fun ended => ?_
  · cases hresult : script.result (PageReading.renderRequest folder cap) with
    | error e => exact fault_of_last?_stop (result_ne_cancelled hresult)
    | ok made =>
      dsimp only
      cases PageReading.images folder made.files with
      | nil => exact fault_of_last?_readImages 0 0 [] []
      | cons image rest => exact nofun
  · cases ended with
    | error e => exact heeds_stop e
    | ok made =>
      dsimp only
      cases PageReading.images folder made.files with
      | nil => exact .finish _
      | cons image rest => exact .emit (heeds_readImages _ _ _ _)

theorem heeds_readPicture (folder : String) : (readPicture folder).Heeds := by
  refine .emit (.run rfl (fun script => ?_) fun ended => ?_)
  · cases hread : (script.result (PageReading.readRequest (folder ++ "/input.png"))).bind
      fun made => PageReading.pageOf made.output with
    | ok read =>
      intro last hlast heq
      obtain rfl := Option.some.inj hlast
      cases heq
    | error e => exact fault_of_last?_stop (given_ne_cancelled hread)
  · cases ended.bind fun made => PageReading.pageOf made.output with
    | ok read => exact .finish _
    | error e => exact heeds_stop e

theorem heeds_forDocument (folder : String) (data : Text.Utf8.Bytes) (mime : String) (cap : Int) :
    (forDocument folder data mime cap).Heeds := by
  rw [forDocument]
  split_ifs
  · exact .finish _
  · exact heeds_readPicture folder
  · exact heeds_readPdf folder _

/-- A document that is not empty takes an event or a program. -/
theorem last?_forDocument (folder : String) {data : Text.Utf8.Bytes} (hdata : data ≠ [])
    (mime : String) (cap : Int) : (forDocument folder data mime cap).last? = none := by
  rw [forDocument, if_neg (by simpa using hdata)]
  split_ifs
  · rfl
  · rfl

variable {plan : Plan} {t : Site}

/-- Once the cancellation has fired, a plan gives the cancellation unless
nothing but its last event is left. -/
theorem Heeds.complete_of_fired (h : plan.Heeds) (ht : t.fired = true) :
    (plan.complete t).1 = [plan.last?.getD (.failed .cancelled)] := by
  induction h generalizing t with
  | finish last => rfl
  | emit _ _ =>
    simp only [Plan.complete]
    rw [if_pos ht]
    rfl
  | note _ ih => exact ih ht
  | run hcancelled _ _ _ =>
    simp only [Plan.complete]
    rw [Shell.run_of_fired _ (eq_of_beq ht)]
    dsimp only
    rw [hcancelled]
    rfl

theorem Heeds.told_of_fired (h : plan.Heeds) (waits : Bool) (t : Site) :
    (plan.advance true waits t).1.1 = [plan.last?.getD (.failed .cancelled)] := by
  induction h generalizing t with
  | finish last => rfl
  | emit _ _ => rfl
  | note _ ih => exact ih _
  | run hcancelled _ _ _ =>
    rw [advance_run_of_fired, hcancelled]
    rfl

end Plan

/-! ## Programs -/

namespace Shell

theorem stopCause_ne_timedOut (fires : Option Float) : stopCause none fires ≠ .timedOut := by
  cases fires <;> exact Outcome.noConfusion

theorem race_ne_timedOut (ending : Ending) (fires : Option Float) :
    race ending none fires ≠ .timedOut := by
  cases ending with
  | atOnce => exact Outcome.noConfusion
  | never => exact stopCause_ne_timedOut fires
  | after t =>
    rw [race]
    split
    · exact Outcome.noConfusion
    · exact stopCause_ne_timedOut fires

variable {r : Request} {s : Site}

/-- A program that leaves its caller waiting does not fire the cancellation. -/
theorem fires_of_waiting {script : Script} {heeded : Bool}
    (h : script.outcome none heeded = .waiting) : (heeded && script.fires .waiting) = false := by
  cases heeded with
  | false => rfl
  | true =>
    obtain ⟨-, -, hnone⟩ :=
      never_of_race_eq_waiting (Script.race_of_outcome h Outcome.noConfusion)
    cases hfiring : script.firing with
    | never => simp [Script.fires, hfiring]
    | atEnd => simp [Script.fires, hfiring]
    | after t => simp [Script.fires, hfiring]
    | atStart => simp [Script.fireTime, hfiring] at hnone

/-- A program that runs without a time limit while the cancellation fires is
stopped by it, or has ended by itself. -/
theorem run_of_fires (hr : r.limit = none) (hs : s.abandoned = false) (h : s.fired = false)
    (hfired : (run r s).2.fired = true) :
    (run r s).1 = .error .cancelled ∨
      (run r s).1 = (s.takeScript r.program).1.result r := by
  have hunfired : (s.launched r).fired = false := by
    rw [Site.launched_eq]
    exact h
  have hpresent : (s.launched r).abandoned = false := by
    rw [Site.launched_eq]
    exact hs
  rw [run_of_unfired h] at hfired ⊢
  cases hfault : (s.takeScript r.program).1.startFault with
  | some e =>
    rw [hfault] at hfired
    exact absurd (hunfired.symm.trans hfired) Bool.false_ne_true
  | none =>
    rw [hfault] at hfired
    have hcourse : courseOf (s.launched r) r (s.takeScript r.program).1 =
        (s.takeScript r.program).1.outcome none (s.launched r).signal.isSome := by
      rw [courseOf, hpresent, hr]
    dsimp only at hfired ⊢
    rw [await_eq] at hfired ⊢
    cases houtcome : courseOf (s.launched r) r (s.takeScript r.program).1 with
    | ended => exact .inr rfl
    | cancelled => exact .inl rfl
    | timedOut =>
      have hrace := Script.race_of_outcome (hcourse.symm.trans houtcome) Outcome.noConfusion
      exact absurd hrace (race_ne_timedOut _ _)
    | waiting =>
      rw [houtcome] at hfired
      have hquiet := fires_of_waiting (hcourse.symm.trans houtcome)
      have hstays : ((s.launched r).fire
          ((s.takeScript r.program).1.fires .waiting)).fired = false := by
        rw [Site.fired_fire, hunfired, hquiet]
        rfl
      exact absurd (hstays.symm.trans hfired) Bool.false_ne_true

theorem abandoned_run (r : Request) (s : Site) : (run r s).2.abandoned = s.abandoned := by
  cases hfired : s.fired with
  | true => rw [run_of_fired r (by simpa [Site.fired] using hfired)]
  | false =>
    have hlaunched : (s.launched r).abandoned = s.abandoned := by rw [Site.launched_eq]
    rw [run_of_unfired hfired]
    cases (s.takeScript r.program).1.startFault with
    | some e => exact hlaunched
    | none =>
      dsimp only
      rw [await_eq]
      cases courseOf (s.launched r) r (s.takeScript r.program).1 <;> exact hlaunched

end Shell

/-! ## Carrying out -/

namespace Plan

/-- What a plan that is carried out does next. -/
inductive Goes : Plan × Site → Plan × Site → Prop where
  | emits (p : Progress) (next : Plan) {t : Site} (h : t.fired = false) :
      Goes (.emit p next, t) (next, t)
  | notes (level : Level) (text : String) (next : Plan) (t : Site) :
      Goes (.note level text next, t) (next, t.note .progress level text)
  | runs (r : Request) (next : Except Fault Yield → Plan) (t : Site) :
      Goes (.run r next, t) (next (Shell.run r t).1, (Shell.run r t).2)

/-- All that a plan comes to when it is carried out. -/
def Leads : Plan × Site → Plan × Site → Prop := Relation.ReflTransGen Goes

/-- The cancellation fires during a program that is not stopped by it, and
nothing but the last event is left to do then. -/
inductive Slips (plan : Plan) (t : Site) (last : Progress) : Prop where
  | intro {r : Request} {next : Except Fault Yield → Plan} {u : Site}
      (hleads : Leads (plan, t) (.run r next, u)) (hbefore : u.fired = false)
      (hfired : (Shell.run r u).2.fired = true)
      (hended : (Shell.run r u).1 = (u.takeScript r.program).1.result r)
      (hlast : (next ((u.takeScript r.program).1.result r)).last? = some last) :
      Slips plan t last

variable {x y : Plan × Site} {plan : Plan} {t : Site} {last : Progress}

theorem Goes.complete (h : Goes x y) :
    ∃ earlier, (x.1.complete x.2).1 = earlier ++ (y.1.complete y.2).1 := by
  cases h with
  | emits p next h => exact ⟨[p], congrArg Prod.fst (complete_emit h p next)⟩
  | notes => exact ⟨[], rfl⟩
  | runs => exact ⟨[], rfl⟩

theorem Leads.complete (h : Leads x y) :
    ∃ earlier, (x.1.complete x.2).1 = earlier ++ (y.1.complete y.2).1 := by
  induction h with
  | refl => exact ⟨[], rfl⟩
  | tail _ hgoes ih =>
    obtain ⟨earlier, hearlier⟩ := ih
    obtain ⟨later, hlater⟩ := hgoes.complete
    exact ⟨earlier ++ later, by rw [hearlier, hlater, List.append_assoc]⟩

theorem Goes.heeds (h : Goes x y) (hx : x.1.Heeds) : y.1.Heeds := by
  cases h with
  | emits =>
    cases hx with
    | emit hnext => exact hnext
  | notes =>
    cases hx with
    | note hnext => exact hnext
  | runs =>
    cases hx with
    | run _ _ hnext => exact hnext _

theorem Leads.heeds (h : Leads x y) (hx : x.1.Heeds) : y.1.Heeds := by
  induction h with
  | refl => exact hx
  | tail _ hgoes ih => exact hgoes.heeds ih

/-- Where the cancellation slips through, the last event is what the last
program gave, and no cancellation. -/
theorem Slips.complete (h : plan.Slips t last) (hplan : plan.Heeds) :
    (∃ earlier, (plan.complete t).1 = earlier ++ [last]) ∧ last.fault ≠ some .cancelled := by
  obtain @⟨r, next, u, hleads, -, hfired, hended, hlast⟩ := h
  obtain ⟨earlier, hevents⟩ := hleads.complete
  cases hleads.heeds hplan with
  | run _ hnot hnext =>
    have hrest := (hnext (Shell.run r u).1).complete_of_fired hfired
    have hlast' : (next (Shell.run r u).1).last? = some last := hended ▸ hlast
    rw [hlast'] at hrest
    exact ⟨⟨earlier, hevents.trans (congrArg (earlier ++ ·) hrest)⟩, hnot _ last hlast⟩

/-- A plan tells of the cancellation in the end, or it slips through. -/
def Accounts (plan : Plan) (t : Site) : Prop :=
  (∃ earlier, (plan.complete t).1 = earlier ++ [.failed .cancelled]) ∨ ∃ last, plan.Slips t last

theorem Goes.accounts (h : Goes x y) (hy : y.1.Accounts y.2) : x.1.Accounts x.2 := by
  rcases hy with ⟨later, hlater⟩ | ⟨last, hleads, hbefore, hfired, hended, hlast⟩
  · obtain ⟨earlier, hearlier⟩ := h.complete
    exact .inl ⟨earlier ++ later, by rw [hearlier, hlater, List.append_assoc]⟩
  · exact .inr ⟨last, .head h hleads, hbefore, hfired, hended, hlast⟩

/-- The induction is on the plan: either the cancellation has fired behind its
next program, and what is left is known, or it fires later. -/
theorem Heeds.accounts (h : plan.Heeds) (hlimit : plan.Unlimited) (hpresent : t.abandoned = false)
    (hbefore : t.fired = false) (hfired : (plan.complete t).2.fired = true) :
    plan.Accounts t := by
  induction h generalizing t with
  | finish last => exact absurd (hbefore.symm.trans hfired) Bool.false_ne_true
  | @emit p next _ ih =>
    cases hlimit with
    | emit hlimit =>
      rw [complete_emit hbefore] at hfired
      exact (Goes.emits p next hbefore).accounts (ih hlimit hpresent hbefore hfired)
  | @note level text next _ ih =>
    cases hlimit with
    | note hlimit =>
      have hrest : next.Accounts (t.note .progress level text) :=
        ih hlimit hpresent hbefore hfired
      exact (Goes.notes level text next t).accounts hrest
  | @run r next hcancelled _ hnext ih =>
    cases hlimit with
    | run hr hlimit =>
      have hgoes := Goes.runs r next t
      cases hafter : (Shell.run r t).2.fired with
      | false =>
        have hpresent' := (Shell.abandoned_run r t).trans hpresent
        exact hgoes.accounts (ih _ (hlimit _) hpresent' hafter hfired)
      | true =>
        have hrest := (hnext (Shell.run r t).1).complete_of_fired hafter
        cases hlast : (next (Shell.run r t).1).last? with
        | none =>
          rw [hlast] at hrest
          exact hgoes.accounts (.inl ⟨[], hrest⟩)
        | some last =>
          rcases Shell.run_of_fires hr hpresent hbefore hafter with hstopped | hended
          · rw [hstopped, hcancelled] at hrest
            refine hgoes.accounts (.inl ⟨[], ?_⟩)
            rw [hstopped, hcancelled]
            exact hrest
          · exact .inr ⟨last, .refl, hbefore, hafter, hended, hended ▸ hlast⟩

end Plan

end Intake
