import Intake.Program.Run

/-!
# Computations at a site

What a computation at a site keeps of the site, and which faults it may
fail with.

There are three groups.

* Evaluation.  `bind_of_ok` and its siblings say what a composed
  computation gives at a site.
* Keeping.  `Shell.Keeps` bounds what a computation does; each way of
  composing computations has a rule.
* Giving.  `Shell.Gives` is a property of every result of a computation,
  with the same rules.
-/

namespace Intake.Shell

variable {α β : Type}

/-! ## Evaluation -/

/-- A computation gives one result at a site. -/
theorem ok_unique {x : Shell α} {s t u : Site} {a b : α} (h : x s = (.ok a, t))
    (h' : x s = (.ok b, u)) : a = b ∧ t = u := by
  have heq : ((.ok a, t) : Except Fault α × Site) = (.ok b, u) := h.symm.trans h'
  obtain ⟨hab, rfl⟩ := Prod.mk.inj heq
  exact ⟨Except.ok.inj hab, rfl⟩

theorem bind_of_ok {x : Shell α} {f : α → Shell β} {s t : Site} {a : α} (h : x s = (.ok a, t)) :
    (x >>= f) s = f a t := by
  change (ExceptT.bind x f : Shell β) s = _
  simp only [ExceptT.bind, ExceptT.mk, bind, StateT.bind]
  rw [h]
  rfl

theorem bind_of_error {x : Shell α} {f : α → Shell β} {s t : Site} {e : Fault}
    (h : x s = (.error e, t)) : (x >>= f) s = (.error e, t) := by
  change (ExceptT.bind x f : Shell β) s = _
  simp only [ExceptT.bind, ExceptT.mk, bind, StateT.bind]
  rw [h]
  rfl

/-- A computation that ends with a function of what it gave. -/
theorem bind_pure_eq (x : Shell α) (f : α → β) (s : Site) :
    (x >>= fun a => pure (f a)) s = ((x s).1.map f, (x s).2) := by
  rcases hrun : x s with ⟨outcome, t⟩
  cases outcome with
  | ok a => exact bind_of_ok hrun
  | error e => exact bind_of_error hrun

theorem tryCatch_of_ok {x : Shell α} {handle : Fault → Shell α} {s t : Site} {a : α}
    (h : x s = (.ok a, t)) : (tryCatch x handle) s = (.ok a, t) := by
  change (ExceptT.tryCatch x handle : Shell α) s = _
  simp only [ExceptT.tryCatch, ExceptT.mk, bind, StateT.bind]
  rw [h]
  rfl

theorem tryCatch_of_error {x : Shell α} {handle : Fault → Shell α} {s t : Site} {e : Fault}
    (h : x s = (.error e, t)) : (tryCatch x handle) s = handle e t := by
  change (ExceptT.tryCatch x handle : Shell α) s = _
  simp only [ExceptT.tryCatch, ExceptT.mk, bind, StateT.bind]
  rw [h]

theorem map_of_ok {x : Shell α} {f : α → β} {s t : Site} {a : α} (h : x s = (.ok a, t)) :
    (f <$> x) s = (.ok (f a), t) := by
  rw [map_eq_pure_bind, bind_of_ok h]
  rfl

theorem map_of_error {x : Shell α} {f : α → β} {s t : Site} {e : Fault}
    (h : x s = (.error e, t)) : (f <$> x) s = (.error e, t) := by
  rw [map_eq_pure_bind, bind_of_error h]

theorem check_of_unfired {s : Site} (h : s.fired = false) : check s = (.ok (), s) := by
  rw [check, h]
  rfl

theorem check_of_fired {s : Site} (h : s.fired = true) : check s = (.error .cancelled, s) := by
  rw [check, h]
  rfl

/-! ## Keeping -/

/-- A computation keeps a property of the site, and it fails only with
certain faults. -/
def Keeps (I : Site → Prop) (E : Fault → Prop) (x : Shell α) : Prop :=
  ∀ s, I s → I (x s).2 ∧ ∀ e, (x s).1 = .error e → E e

section Keeping

variable {I : Site → Prop} {E E' : Fault → Prop} {x : Shell α}

theorem Keeps.mono (h : Keeps I E x) (himp : ∀ e, E e → E' e) : Keeps I E' x :=
  fun s hs => ⟨(h s hs).1, fun e he => himp e ((h s hs).2 e he)⟩

theorem Keeps.pure (a : α) : Keeps I E (Pure.pure a : Shell α) :=
  fun _ hs => ⟨hs, fun _ he => by cases he⟩

theorem Keeps.throw {e : Fault} (he : E e) : Keeps I E (throw e : Shell α) := by
  intro s hs
  refine ⟨hs, fun e' he' => ?_⟩
  obtain rfl : e = e' := Except.error.inj he'
  exact he

/-- What follows may depend on what the first computation gave. -/
theorem Keeps.bind_of {f : α → Shell β} (hx : Keeps I E x)
    (hf : ∀ s a t, I s → x s = (.ok a, t) →
      I (f a t).2 ∧ ∀ e, (f a t).1 = .error e → E e) : Keeps I E (x >>= f) := by
  intro s hs
  obtain ⟨hkept, hfault⟩ := hx s hs
  rcases hrun : x s with ⟨outcome, t⟩
  rw [hrun] at hkept hfault
  cases outcome with
  | ok a =>
    rw [bind_of_ok hrun]
    exact hf s a t hs hrun
  | error e =>
    rw [bind_of_error hrun]
    exact ⟨hkept, fun e' he' => hfault e' (congrArg _ (Except.error.inj he'))⟩

theorem Keeps.bind {f : α → Shell β} (hx : Keeps I E x) (hf : ∀ a, Keeps I E (f a)) :
    Keeps I E (x >>= f) := by
  refine hx.bind_of fun s a t hs hrun => hf a t ?_
  have hkept := (hx s hs).1
  rw [hrun] at hkept
  exact hkept

theorem Keeps.tryCatch {handle : Fault → Shell α} (hx : Keeps I E' x)
    (hhandle : ∀ e, E' e → Keeps I E (handle e)) : Keeps I E (tryCatch x handle) := by
  intro s hs
  obtain ⟨hkept, hfault⟩ := hx s hs
  rcases hrun : x s with ⟨outcome, t⟩
  rw [hrun] at hkept hfault
  cases outcome with
  | ok a =>
    rw [tryCatch_of_ok hrun]
    exact ⟨hkept, fun _ he => by cases he⟩
  | error e =>
    rw [tryCatch_of_error hrun]
    exact hhandle e (hfault e rfl) t hkept

theorem Keeps.map {f : α → β} (hx : Keeps I E x) : Keeps I E (f <$> x) := by
  rw [map_eq_pure_bind]
  exact hx.bind fun a => Keeps.pure (f a)

theorem Keeps.get : Keeps I E (get : Shell Site) :=
  fun _ hs => ⟨hs, fun _ he => by cases he⟩

theorem Keeps.change {f : Site → Site} (hf : ∀ s, I s → I (f s)) : Keeps I E (Shell.change f) :=
  fun s hs => ⟨hf s hs, fun _ he => by cases he⟩

theorem Keeps.ite {c : Prop} [Decidable c] {y : Shell α} (hx : Keeps I E x) (hy : Keeps I E y) :
    Keeps I E (if c then x else y) := by
  split
  · exact hx
  · exact hy

/-- A computation that may fail with no fault at all gives a result. -/
theorem Keeps.returns (h : Keeps I (fun _ => False) x) {s : Site} (hs : I s) :
    ∃ a t, x s = (.ok a, t) ∧ I t := by
  obtain ⟨hkept, hfault⟩ := h s hs
  rcases hrun : x s with ⟨outcome, t⟩
  rw [hrun] at hkept hfault
  cases outcome with
  | ok a => exact ⟨a, t, rfl, hkept⟩
  | error e => exact (hfault e rfl).elim

end Keeping

/-! ## Giving -/

/-- Every result of a computation has a property. -/
def Gives (Q : α → Prop) (x : Shell α) : Prop := ∀ s a t, x s = (.ok a, t) → Q a

section Giving

variable {Q : α → Prop} {x : Shell α}

theorem Gives.pure {a : α} (h : Q a) : Gives Q (Pure.pure a : Shell α) := by
  intro s b t hb
  obtain rfl : a = b := Except.ok.inj (congrArg Prod.fst hb)
  exact h

theorem Gives.throw (e : Fault) : Gives Q (throw e : Shell α) :=
  fun _ _ _ h => by cases h

theorem Gives.bind {R : β → Prop} {f : α → Shell β} (hf : ∀ a, Gives R (f a)) :
    Gives R (x >>= f) := by
  intro s b t hb
  rcases hrun : x s with ⟨outcome, u⟩
  cases outcome with
  | ok a =>
    rw [bind_of_ok hrun] at hb
    exact hf a u b t hb
  | error e =>
    rw [bind_of_error hrun] at hb
    cases hb

theorem Gives.tryCatch {handle : Fault → Shell α} (hx : Gives Q x)
    (hhandle : ∀ e, Gives Q (handle e)) : Gives Q (tryCatch x handle) := by
  intro s a t ha
  rcases hrun : x s with ⟨outcome, u⟩
  cases outcome with
  | ok b =>
    rw [tryCatch_of_ok hrun] at ha
    obtain rfl : b = a := Except.ok.inj (congrArg Prod.fst ha)
    exact hx s b u hrun
  | error e =>
    rw [tryCatch_of_error hrun] at ha
    exact hhandle e u a t ha

theorem Gives.map {R : β → Prop} {f : α → β} (hx : Gives (fun a => R (f a)) x) :
    Gives R (f <$> x) := by
  intro s b t hb
  rcases hrun : x s with ⟨outcome, u⟩
  cases outcome with
  | ok a =>
    rw [map_of_ok hrun] at hb
    obtain rfl : f a = b := Except.ok.inj (congrArg Prod.fst hb)
    exact hx s a u hrun
  | error e =>
    rw [map_of_error hrun] at hb
    cases hb

theorem Gives.ite {c : Prop} [Decidable c] {y : Shell α} (hx : Gives Q x) (hy : Gives Q y) :
    Gives Q (if c then x else y) := by
  split
  · exact hx
  · exact hy

end Giving

end Intake.Shell
