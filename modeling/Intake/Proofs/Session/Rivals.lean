import Intake.Proofs.Program.Courses
import Intake.Proofs.Session.Blocked
import Intake.Proofs.Session.Opening

/-!
# Rivals

Several callers open stored documents at one workshop. A call whose text has
to be waited for is in two parts, and other calls may come in between.

The caller that is served last wins: the open session, if there is one, is
its, and the cancellations of all other sessions have fired. That need not be
the caller that came last, for nothing in the second part asks whether
somebody else has come since.

There are four groups.

* Parts.  `openDocument_eq` says that the two parts make up the whole.
* Turns.  `Workbench.Replaces` is what a session that opens does to the
  workbench; `serves_openWith` gives the two ways in which a call can end.
* Contests.  `Contest.Step` is one step of a contest, `Contest.Settled` what
  it keeps.
* Winners.  `Contest.last_served_wins` is the result, and `Contest.overtaken`
  and `Contest.refused` are contests that the last to come has lost.
-/

namespace Intake

/-! ## Parts -/

section Parts

variable {data : Text.Utf8.Bytes} {mime : String} {bound : Option Float} {E : Fault → Prop}

/-- Where there is no cancellation, there is none once a program has started. -/
theorem Shell.keeps_start (r : Request) :
    Keeps (fun s => s.signal = none) (fun _ => True) (Shell.start r) := by
  unfold Shell.start
  refine Keeps.bind ?_ fun _ => Keeps.bind ?_ fun script => ?_
  · intro s hs
    exact ⟨hs, fun _ _ => trivial⟩
  · intro s hs
    refine ⟨?_, fun _ _ => trivial⟩
    unfold launch
    dsimp only
    split <;> exact hs
  · exact Keeps.bind Keeps.get fun _ => Keeps.pure _

theorem TextLayer.keeps_start (data : Text.Utf8.Bytes) (mime : String) (bound : Option Float) :
    Shell.Keeps (fun s => s.signal = none) (fun _ => True) (TextLayer.start data mime bound) := by
  unfold TextLayer.start
  refine .ite (.pure _) (.ite (.bind ?_ fun there => .ite ?_ (.pure _)) (.ite (.pure _) (.pure _)))
  · intro s hs
    exact ⟨(Site.rests_ask (Tools.has .textExtractor)).signal.trans hs, fun _ _ => trivial⟩
  · exact .bind .get fun s => .bind (Shell.keeps_start _) fun _ => .pure _

end Parts

namespace Workshop

variable {s : Workshop} {id : Int} {d : Document} {data : Text.Utf8.Bytes} {e : Fault}

theorem openDocument_of_load (hload : s.bench.load id = .ok (d, data)) :
    openDocument id s = openWith d data (textOf d data s).1 (textOf d data s).2 := by
  simp only [openDocument, bind, StateT.bind, get, getThe, MonadStateOf.get, StateT.get, pure,
    hload]
  rfl

theorem bench_askText (d : Document) (data : Text.Utf8.Bytes) (s : Workshop) :
    (askText d data s).2.bench = s.bench := by
  unfold askText
  split <;> rfl

theorem textOf_eq (d : Document) (data : Text.Utf8.Bytes) (s : Workshop) :
    textOf d data s = match askText d data s with
      | (.ok (.inr p), t) => unsignalled (TextLayer.finish p) t
      | (.ok (.inl text), t) => (.ok text, t)
      | (.error e, t) => (.error e, t) := by
  unfold textOf askText
  split
  · have hkept := (TextLayer.keeps_start data d.mimeType (some s.bench.settings.textTimeout))
      { s.site with signal := none } rfl
    simp only [unsignalled, TextLayer.extract_eq]
    rcases hstart : TextLayer.start data d.mimeType (some s.bench.settings.textTimeout)
      { s.site with signal := none } with ⟨begun, t⟩
    rw [hstart] at hkept
    obtain ⟨hsignal, -⟩ := hkept
    cases begun with
    | error e => rw [Shell.bind_of_error hstart]
    | ok begun =>
      rw [Shell.bind_of_ok hstart]
      cases begun with
      | inl text => rfl
      | inr p =>
        -- Between the parts the cancellation is put aside again.
        have ht : ({ t with signal := none } : Site) = t := by rw [← hsignal]
        simp only [Sum.elim_inr, ht]
        rfl
  · rfl

theorem requestDocument_of_unloaded (hload : s.bench.load id = .error e) :
    requestDocument id s = (.inl (.error e), s) := by
  simp only [requestDocument, bind, StateT.bind, get, getThe, MonadStateOf.get, StateT.get, pure,
    hload]
  rfl

theorem requestDocument_of_load (hload : s.bench.load id = .ok (d, data)) :
    requestDocument id s = match askText d data s with
      | (.ok (.inr p), t) => (.inr ⟨d, data, p⟩, t)
      | (.ok (.inl text), t) =>
        (.inl (openWith d data (.ok text) t).1, (openWith d data (.ok text) t).2)
      | (.error e, t) =>
        (.inl (openWith d data (.error e) t).1, (openWith d data (.error e) t).2) := by
  simp only [requestDocument, bind, StateT.bind, get, getThe, MonadStateOf.get, StateT.get, pure,
    hload]
  rcases askText d data s with ⟨e | (text | p), t⟩
  · rfl
  · rfl
  · rfl

/-- To open a stored document is to request it and to finish at once. -/
theorem openDocument_eq (id : Int) :
    openDocument id = requestDocument id >>= Sum.elim pure finishDocument := by
  funext s
  change _ = Sum.elim pure finishDocument (requestDocument id s).1 (requestDocument id s).2
  cases hload : s.bench.load id with
  | error e =>
    rw [openDocument_of_unloaded hload, requestDocument_of_unloaded hload]
    rfl
  | ok found =>
    obtain ⟨d, data⟩ := found
    rw [openDocument_of_load hload, requestDocument_of_load hload, textOf_eq]
    rcases askText d data s with ⟨e | (text | p), t⟩
    · rfl
    · rfl
    · rfl

end Workshop

/-! ## Turns -/

namespace Workbench

variable {w w' w'' : Workbench} {document : Int}

/-- The number and the document of the open session. -/
def holder? (w : Workbench) : Option (Nat × Int) :=
  w.session.map fun s => (s.number, s.document)

/-- The session that was open is ended, and one for a document has taken its
place, or none. -/
structure Replaces (w w' : Workbench) (document : Int) : Prop where
  fired : w'.fired = w.fired ++ (w.holder?.map Prod.fst).toList
  holder : w'.holder? = none ∧ w'.opened = w.opened ∨
    w'.holder? = some (w.opened + 1, document) ∧ w'.opened = w.opened + 1

/-- What the end of a call has done: nothing if it ended with a fault. -/
inductive Serves (w w' : Workbench) (document : Int) : Except Fault (Option Command) → Prop
  | refused {e : Fault} (h : w.Prepares w') : Serves w w' document (.error e)
  | opened {command : Option Command} (h : w.Replaces w' document) :
      Serves w w' document (.ok command)

theorem fired_cancel (w : Workbench) :
    w.cancel.fired = w.fired ++ (w.holder?.map Prod.fst).toList := by
  unfold cancel holder?
  split
  · rename_i hsession
    simp [hsession]
  · rename_i s hsession
    simp [hsession]

theorem replaces_open (w : Workbench) (now : Float) (document : Int) (filename : String)
    (data : Text.Utf8.Bytes) (mime text : String) :
    w.Replaces (w.open now document filename data mime text).bench document := by
  cases hreads : w.canReadPages mime with
  | true =>
    rw [open_of_reads hreads]
    exact ⟨fired_cancel w, .inr ⟨rfl, rfl⟩⟩
  | false =>
    cases hclient : w.clientInUse with
    | some client =>
      rw [open_of_asks hreads hclient]
      obtain ⟨session, records, hstart⟩ := touches_startModel w.begun now client
        (w.newSession document filename data mime text)
      refine ⟨?_, .inr ⟨rfl, ?_⟩⟩
      · rw [hstart]
        exact fired_cancel w
      · rw [hstart]
        rfl
    | none =>
      obtain ⟨-, hopened, hsession, -⟩ := frames_cancel w
      rw [open_of_idle hreads hclient]
      refine ⟨fired_cancel w, .inl ⟨?_, hopened⟩⟩
      show w.cancel.session.map _ = none
      rw [hsession]
      rfl

theorem Prepares.replaces (h : w.Prepares w') (h' : w'.Replaces w'' document) :
    w.Replaces w'' document := by
  obtain ⟨capabilities, records, rfl⟩ := h
  exact ⟨h'.fired, h'.holder⟩

end Workbench

theorem Store.id_of_get {store : Store} {id : Int} {d : Document} (h : store.get id = .ok d) :
    d.id = id := by
  unfold Store.get at h
  cases hpermit : store.permit .get with
  | error e =>
    rw [hpermit] at h
    cases h
  | ok _ =>
    rw [hpermit] at h
    change store.require id = .ok d at h
    unfold Store.require at h
    split at h
    · rename_i there hfind
      obtain rfl := Except.ok.inj h
      unfold Store.find? at hfind
      have hid := List.find?_some hfind
      exact beq_iff_eq.1 hid
    · cases h

theorem Workbench.id_of_load {w : Workbench} {id : Int} {d : Document} {data : Text.Utf8.Bytes}
    (h : w.load id = .ok (d, data)) : d.id = id := by
  unfold Workbench.load at h
  split at h
  · cases h
  · rename_i store _
    cases hget : store.get id with
    | error e =>
      rw [hget] at h
      cases h
    | ok found =>
      rw [hget] at h
      cases hcopy : store.copyOut id with
      | error e =>
        rw [hcopy] at h
        cases h
      | ok copy =>
        rw [hcopy] at h
        obtain rfl := congrArg Prod.fst (Except.ok.inj h)
        exact Store.id_of_get hget

/-- A store that does not fail gives a document and its bytes. -/
theorem Workbench.load_eq {w : Workbench} {store : Store} {d : Document} {id : Int}
    (hstore : w.store = some store) (hfailing : store.failing = [])
    (hfind : store.find? id = some d)
    (hname : (FileName.lastName d.fileName).contains '\x00' = false) {data : Text.Utf8.Bytes}
    (hdata : (store.blobs.lookup id).getD [] = data) : w.load id = .ok (d, data) := by
  have hpermit : ∀ a, store.permit a = .ok () := by
    intro a
    simp [Store.permit, hfailing]
  have hrequire : store.require id = .ok d := by simp [Store.require, hfind]
  have hget : store.get id = .ok d := by
    simp [Store.get, hpermit, hrequire, bind, Except.bind]
  have hcopy : store.copyOut id =
      .ok (Number.intText id ++ "-" ++ FileName.lastName d.fileName, data) := by
    simp [Store.copyOut, hpermit, hrequire, hname, hdata, bind, Except.bind, pure, Except.pure]
  simp [Workbench.load, hstore, hget, hcopy, bind, Except.bind, pure, Except.pure]

namespace Workshop

variable {s : Workshop} {id : Int} {d : Document} {data : Text.Utf8.Bytes}

theorem serves_openWith (d : Document) (data : Text.Utf8.Bytes) (text : Except Fault String)
    (s : Workshop) :
    s.bench.Serves (openWith d data text s).2.bench d.id (openWith d data text s).1 := by
  have hprepares := prepares_usableText s.bench d text
  rcases hwork : work (fun _ bench => bench.usableText d text) s with ⟨used, t⟩
  have hbench : t.bench = (s.bench.usableText d text).1 :=
    congrArg (fun r => r.2.bench) hwork.symm
  rw [← hbench] at hprepares
  simp only [openWith, bind, StateT.bind, hwork]
  cases used with
  | error e => exact .refused hprepares
  | ok text =>
    have hsurvey := prepares_survey d.mimeType t
    have hturn := turnOf_open t d.id d.fileName data d.mimeType text
    obtain ⟨command, hcommand⟩ := Workbench.exists_outcome_open (survey d.mimeType t).2.bench
      (survey d.mimeType t).2.site.book.clock d.id d.fileName data d.mimeType text
    rw [← hturn] at hcommand
    have hreplaces := Workbench.replaces_open (survey d.mimeType t).2.bench
      (survey d.mimeType t).2.site.book.clock d.id d.fileName data d.mimeType text
    rw [← hturn] at hreplaces
    change s.bench.Serves (t.turnOf (Workshop.open d.id d.fileName data d.mimeType text)).bench
      d.id (t.turnOf (Workshop.open d.id d.fileName data d.mimeType text)).outcome
    rw [hcommand]
    exact .opened (hprepares.replaces (hsurvey.replaces hreplaces))

/-- A request that ends at once has served its caller or not; one that waits
has done nothing to the workbench. -/
theorem requestDocument_cases (id : Int) (s : Workshop) :
    (∃ outcome t, requestDocument id s = (.inl outcome, t) ∧
        s.bench.Serves t.bench id outcome) ∨
      ∃ o t, requestDocument id s = (.inr o, t) ∧ o.document.id = id ∧ t.bench = s.bench := by
  cases hload : s.bench.load id with
  | error e =>
    rw [requestDocument_of_unloaded hload]
    exact .inl ⟨_, _, rfl, .refused ⟨_, _, rfl⟩⟩
  | ok found =>
    obtain ⟨d, data⟩ := found
    obtain rfl := Workbench.id_of_load hload
    have hbench := bench_askText d data s
    rw [requestDocument_of_load hload]
    rcases hasked : askText d data s with ⟨e | (text | p), t⟩
    · rw [hasked] at hbench
      rw [← hbench]
      exact .inl ⟨_, _, rfl, serves_openWith d data (.error e) t⟩
    · rw [hasked] at hbench
      rw [← hbench]
      exact .inl ⟨_, _, rfl, serves_openWith d data (.ok text) t⟩
    · rw [hasked] at hbench
      exact .inr ⟨_, _, rfl, rfl, hbench⟩

theorem serves_finishDocument (o : Opening) (s : Workshop) :
    s.bench.Serves (finishDocument o s).2.bench o.document.id (finishDocument o s).1 :=
  serves_openWith o.document o.data (unsignalled (TextLayer.finish o.text) s).1
    (unsignalled (TextLayer.finish o.text) s).2

end Workshop

/-! ## Contests -/

/-- Somebody who opens a stored document. -/
structure Caller where
  id : Int
  /-- What is under way, nothing once the call has ended. -/
  opening : Option Workshop.Opening := none
  outcome : Option (Except Fault (Option Command)) := none
  /-- The session that the call has opened. -/
  session : Option Nat := none

/-- A caller whose call has ended. A session was opened if one more is counted
than before. -/
def Caller.ended (caller : Caller) (outcome : Except Fault (Option Command))
    (before after : Workbench) : Caller where
  id := caller.id
  outcome := some outcome
  session := if before.opened < after.opened then some after.opened else none

/-- Callers at one workshop, in the order in which they came. -/
structure Contest where
  shop : Workshop
  callers : List Caller := []
  /-- The places of those whose calls ended without a fault, in the order of
  these ends. -/
  served : List Nat := []

namespace Contest

open Workshop

variable {c c' : Contest} {first : Workbench} {k : Nat} {caller : Caller}

/-- A call ends. -/
def ends (c : Contest) (k : Nat) (outcome : Except Fault (Option Command)) (shop : Workshop) :
    Contest where
  shop := shop
  callers := c.callers.modify k (·.ended outcome c.shop.bench shop.bench)
  served := match outcome with
    | .ok _ => c.served ++ [k]
    | .error _ => c.served

/-- Somebody joins the callers. -/
def joins (c : Contest) (caller : Caller) : Contest :=
  { c with callers := c.callers ++ [caller] }

/-- Somebody requests a document. -/
def requests (c : Contest) (id : Int) : Contest :=
  match requestDocument id c.shop with
  | (.inl outcome, shop) => (c.joins { id := id }).ends c.callers.length outcome shop
  | (.inr o, shop) => { c with shop := shop }.joins { id := id, opening := some o }

/-- The program that a caller waits for has ended. -/
def finishes (c : Contest) (k : Nat) (o : Opening) : Contest :=
  c.ends k (finishDocument o c.shop).1 (finishDocument o c.shop).2

/-- One step of a contest. Whatever else happens leaves the session open that
is open, and fires no cancellation. -/
inductive Step (c : Contest) : Contest → Prop
  | requests (id : Int) : Step c (c.requests id)
  | finishes {k : Nat} {caller : Caller} {o : Opening} (hk : c.callers[k]? = some caller)
      (ho : caller.opening = some o) : Step c (c.finishes k o)
  | elapses {shop : Workshop} (hholder : shop.bench.holder? = c.shop.bench.holder?)
      (hfired : shop.bench.fired = c.shop.bench.fired) : Step c { c with shop := shop }

/-- A caller whose document is found has its text, has to wait for it or cannot
have it. -/
theorem requests_of_load {id : Int} {d : Document} {data : Text.Utf8.Bytes}
    (hload : c.shop.bench.load id = .ok (d, data)) :
    c.requests id = match askText d data c.shop with
      | (.ok (.inr p), shop) =>
        { c with shop := shop }.joins { id := id, opening := some ⟨d, data, p⟩ }
      | (.ok (.inl text), shop) => (c.joins { id := id }).ends c.callers.length
        (openWith d data (.ok text) shop).1 (openWith d data (.ok text) shop).2
      | (.error e, shop) => (c.joins { id := id }).ends c.callers.length
        (openWith d data (.error e) shop).1 (openWith d data (.error e) shop).2 := by
  rw [requests, requestDocument_of_load hload]
  rcases askText d data c.shop with ⟨e | (text | p), shop⟩
  · rfl
  · rfl
  · rfl

/-- What holds in a contest that began at a workbench. -/
structure Settled (first : Workbench) (c : Contest) : Prop where
  /-- Until somebody has been served nothing changes. -/
  idle : c.served = [] → c.shop.bench.holder? = first.holder?
  /-- The session that is open was opened by the last to be served. -/
  holder : ∀ k : Nat, c.served.getLast? = some k → c.shop.bench.holder? = none ∨
    ∃ caller n, c.callers[k]? = some caller ∧ caller.session = some n ∧
      c.shop.bench.holder? = some (n, caller.id)
  /-- Every session that was opened is cancelled or still open. -/
  fired : ∀ (k : Nat) caller n, c.callers[k]? = some caller → caller.session = some n →
    n ∈ c.shop.bench.fired ∨ c.served.getLast? = some k ∧ ∃ id, c.shop.bench.holder? = some (n, id)
  first : ∀ n id, first.holder? = some (n, id) → c.served ≠ [] → n ∈ c.shop.bench.fired
  served : ∀ k : Nat, k ∈ c.served ↔ ∃ caller command, c.callers[k]? = some caller ∧
    caller.outcome = some (.ok command)
  waits : ∀ (k : Nat) caller o, c.callers[k]? = some caller →
    caller.opening = some o →
      o.document.id = caller.id ∧ caller.outcome = none ∧ caller.session = none

theorem settled_start (shop : Workshop) : Settled shop.bench { shop := shop } := by
  refine ⟨fun _ => rfl, ?_, ?_, ?_, ?_, ?_⟩
  · intro k hk
    simp at hk
  · intro k caller n hk
    simp at hk
  · intro n id _ hserved
    exact absurd rfl hserved
  · intro k
    simp
  · intro k caller o hk
    simp at hk

/-- Whatever leaves the open session and the cancellations leaves the rest. -/
theorem Settled.elapses (h : Settled first c) {shop : Workshop}
    (hholder : shop.bench.holder? = c.shop.bench.holder?)
    (hfired : shop.bench.fired = c.shop.bench.fired) : Settled first { c with shop := shop } := by
  obtain ⟨hidle, hholds, hgone, hfirst, hserved, hwaits⟩ := h
  rw [← hholder] at hidle hholds hgone
  rw [← hfired] at hgone hfirst
  exact ⟨hidle, hholds, hgone, hfirst, hserved, hwaits⟩

theorem getElem?_joins {new : Caller} {j : Nat} {x : Caller}
    (hx : (c.joins new).callers[j]? = some x) : c.callers[j]? = some x ∨ x = new := by
  rw [Contest.joins, List.getElem?_append] at hx
  split at hx
  · exact .inl hx
  · exact .inr (List.mem_singleton.1 (List.mem_of_getElem? hx))

theorem getElem?_ends {outcome : Except Fault (Option Command)} {shop : Workshop} {j : Nat}
    (x : Caller) (hk : c.callers[k]? = some caller) :
    (c.ends k outcome shop).callers[j]? = some x ↔
      j = k ∧ x = caller.ended outcome c.shop.bench shop.bench ∨
        j ≠ k ∧ c.callers[j]? = some x := by
  simp only [Contest.ends, List.getElem?_modify]
  by_cases hj : k = j
  · subst hj
    simp [hk, eq_comm]
  · simp [hj, Ne.symm hj, eq_comm]

/-- Somebody who has just come has no part in it yet. -/
theorem Settled.joins (h : Settled first c) (houtcome : caller.outcome = none)
    (hsession : caller.session = none)
    (hwaits : ∀ o, caller.opening = some o → o.document.id = caller.id) :
    Settled first (c.joins caller) := by
  have hstays : ∀ {k : Nat} {x : Caller}, c.callers[k]? = some x →
      (c.joins caller).callers[k]? = some x := by
    intro k x hx
    exact (List.getElem?_append_left (List.getElem?_eq_some_iff.1 hx).1).trans hx
  refine ⟨h.idle, ?_, ?_, h.first, ?_, ?_⟩
  · intro k hk
    rcases h.holder k hk with hnone | ⟨x, n, hx, hn, hholder⟩
    · exact .inl hnone
    · exact .inr ⟨x, n, hstays hx, hn, hholder⟩
  · intro k x n hx hn
    rcases getElem?_joins hx with hx | rfl
    · exact h.fired k x n hx hn
    · rw [hsession] at hn
      cases hn
  · intro k
    rw [show (c.joins caller).served = c.served from rfl, h.served k]
    constructor
    · rintro ⟨x, command, hx, hok⟩
      exact ⟨x, command, hstays hx, hok⟩
    · rintro ⟨x, command, hx, hok⟩
      rcases getElem?_joins hx with hx | rfl
      · exact ⟨x, command, hx, hok⟩
      · rw [houtcome] at hok
        cases hok
  · intro k x o hx ho
    rcases getElem?_joins hx with hx | rfl
    · exact h.waits k x o hx ho
    · exact ⟨hwaits o ho, houtcome, hsession⟩

section Ends

variable {outcome : Except Fault (Option Command)} {shop : Workshop} {x : Caller} {j : Nat}

/-- The end of one call leaves the calls that have ended before. -/
theorem getElem?_ends_of_done (hk : c.callers[k]? = some caller) (houtcome : caller.outcome = none)
    (hsession : caller.session = none) (hx : c.callers[j]? = some x)
    (hdone : x.session ≠ none ∨ x.outcome ≠ none) :
    (c.ends k outcome shop).callers[j]? = some x := by
  refine (getElem?_ends x hk).2 (.inr ⟨?_, hx⟩)
  rintro rfl
  obtain rfl := Option.some.inj (hk.symm.trans hx)
  simp [hsession, houtcome] at hdone

theorem Settled.waits_ends (h : Settled first c) (hk : c.callers[k]? = some caller) {o : Opening}
    (hx : (c.ends k outcome shop).callers[j]? = some x) (ho : x.opening = some o) :
    o.document.id = x.id ∧ x.outcome = none ∧ x.session = none := by
  rcases (getElem?_ends x hk).1 hx with ⟨-, rfl⟩ | ⟨-, hx⟩
  · cases ho
  · exact h.waits j x o hx ho

/-- A call that ends with a fault leaves everything as it was. -/
theorem Settled.refused (h : Settled first c) (hk : c.callers[k]? = some caller)
    (houtcome : caller.outcome = none) (hsession : caller.session = none) {e : Fault}
    (hprepares : c.shop.bench.Prepares shop.bench) :
    Settled first (c.ends k (.error e) shop) := by
  obtain ⟨capabilities, records, hbench⟩ := hprepares
  have hholder : shop.bench.holder? = c.shop.bench.holder? := by
    rw [hbench]
    rfl
  have hstays := h.elapses hholder (by rw [hbench])
  have hnone : (caller.ended (.error e) c.shop.bench shop.bench).session = none := by
    simp [Caller.ended, hbench]
  refine ⟨hstays.idle, ?_, ?_, hstays.first, ?_, fun j x o => h.waits_ends hk⟩
  · intro j hj
    rcases hstays.holder j hj with hfree | ⟨x, n, hx, hn, hheld⟩
    · exact .inl hfree
    · refine .inr ⟨x, n, ?_, hn, hheld⟩
      exact getElem?_ends_of_done hk houtcome hsession hx (.inl (by simp [hn]))
  · intro j x n hx hn
    rcases (getElem?_ends x hk).1 hx with ⟨-, rfl⟩ | ⟨-, hx⟩
    · rw [hnone] at hn
      cases hn
    · exact hstays.fired j x n hx hn
  · intro j
    refine (h.served j).trans ⟨?_, ?_⟩
    · rintro ⟨x, command, hx, hok⟩
      exact ⟨x, command, getElem?_ends_of_done hk houtcome hsession hx (.inr (by simp [hok])), hok⟩
    · rintro ⟨x, command, hx, hok⟩
      rcases (getElem?_ends x hk).1 hx with ⟨-, rfl⟩ | ⟨-, hx⟩
      · cases hok
      · exact ⟨x, command, hx, hok⟩

/-- A call that ends without a fault takes over. -/
theorem Settled.opened (h : Settled first c) (hk : c.callers[k]? = some caller)
    (houtcome : caller.outcome = none) (hsession : caller.session = none)
    {command : Option Command} (hreplaces : c.shop.bench.Replaces shop.bench caller.id) :
    Settled first (c.ends k (.ok command) shop) := by
  have hlast : (c.ends k (.ok command) shop).served.getLast? = some k := List.getLast?_concat
  have hnew : (c.ends k (.ok command) shop).callers[k]? =
      some (caller.ended (.ok command) c.shop.bench shop.bench) :=
    (getElem?_ends _ hk).2 (.inl ⟨rfl, rfl⟩)
  have hkeeps : ∀ n ∈ c.shop.bench.fired, n ∈ shop.bench.fired := by
    intro n hn
    rw [hreplaces.fired]
    exact List.mem_append_left _ hn
  have hgone : ∀ n id, c.shop.bench.holder? = some (n, id) → n ∈ shop.bench.fired := by
    intro n id hheld
    rw [hreplaces.fired, hheld]
    exact List.mem_append_right _ (List.mem_singleton.2 rfl)
  refine ⟨?_, ?_, ?_, ?_, ?_, fun j x o => h.waits_ends hk⟩
  · intro hs
    rw [hs] at hlast
    cases hlast
  · intro j hj
    obtain rfl := Option.some.inj (hlast.symm.trans hj)
    rcases hreplaces.holder with ⟨hfree, -⟩ | ⟨hheld, hopened⟩
    · exact .inl hfree
    · refine .inr ⟨_, _, hnew, ?_, hheld⟩
      simp [Caller.ended, hopened]
  · intro j x n hx hn
    rcases (getElem?_ends x hk).1 hx with ⟨rfl, rfl⟩ | ⟨-, hx⟩
    · rcases hreplaces.holder with ⟨-, hopened⟩ | ⟨hheld, hopened⟩
      · simp [Caller.ended, hopened] at hn
      · have hnumber : c.shop.bench.opened + 1 = n := by
          simpa [Caller.ended, hopened] using hn
        exact .inr ⟨hlast, caller.id, hnumber ▸ hheld⟩
    · -- A session from before was cancelled already, or it is the one that ends now.
      rcases h.fired j x n hx hn with hmem | ⟨-, id, hheld⟩
      · exact .inl (hkeeps n hmem)
      · exact .inl (hgone n id hheld)
  · -- What was open at the beginning is still open until somebody is served.
    intro n id hn _
    by_cases hs : c.served = []
    · exact hgone n id ((h.idle hs).trans hn)
    · exact hkeeps n (h.first n id hn hs)
  · intro j
    show j ∈ c.served ++ [k] ↔ _
    rw [List.mem_append, List.mem_singleton, h.served j]
    constructor
    · rintro (⟨x, command, hx, hok⟩ | rfl)
      · exact ⟨x, command, getElem?_ends_of_done hk houtcome hsession hx (.inr (by simp [hok])),
          hok⟩
      · exact ⟨_, command, hnew, rfl⟩
    · rintro ⟨x, command, hx, hok⟩
      rcases (getElem?_ends x hk).1 hx with ⟨rfl, -⟩ | ⟨-, hx⟩
      · exact .inr rfl
      · exact .inl ⟨x, command, hx, hok⟩

theorem Settled.ends (h : Settled first c) (hk : c.callers[k]? = some caller)
    (houtcome : caller.outcome = none) (hsession : caller.session = none)
    (hserves : c.shop.bench.Serves shop.bench caller.id outcome) :
    Settled first (c.ends k outcome shop) := by
  cases hserves with
  | refused hprepares => exact h.refused hk houtcome hsession hprepares
  | opened hreplaces => exact h.opened hk houtcome hsession hreplaces

end Ends

theorem Settled.step (h : Settled first c) (hstep : Step c c') : Settled first c' := by
  cases hstep with
  | requests id =>
    unfold Contest.requests
    rcases requestDocument_cases id c.shop with ⟨outcome, t, hrequest, hserves⟩ |
      ⟨o, t, hrequest, hid, hbench⟩
    · rw [hrequest]
      have hjoined : Settled first (c.joins { id := id }) := by
        refine h.joins rfl rfl fun o ho => ?_
        cases ho
      have hk : (c.joins { id := id }).callers[c.callers.length]? = some { id := id } :=
        List.getElem?_concat_length
      exact hjoined.ends hk rfl rfl hserves
    · rw [hrequest]
      have helapsed : Settled first { c with shop := t } :=
        h.elapses (by rw [hbench]) (by rw [hbench])
      refine helapsed.joins rfl rfl fun o' ho' => ?_
      obtain rfl := Option.some.inj ho'
      exact hid
  | finishes hk ho =>
    obtain ⟨hid, houtcome, hsession⟩ := h.waits _ _ _ hk ho
    refine h.ends hk houtcome hsession ?_
    rw [← hid]
    exact serves_finishDocument _ c.shop
  | elapses hholder hfired => exact h.elapses hholder hfired

/-! ## Winners -/

/-- A contest at a workshop at which nobody waits yet. -/
def Reaches (shop : Workshop) (c : Contest) : Prop :=
  Relation.ReflTransGen Step { shop := shop } c

theorem settled_of_reaches {shop : Workshop} (h : Reaches shop c) : Settled shop.bench c := by
  induction h with
  | refl => exact settled_start shop
  | tail _ hstep ih => exact ih.step hstep

/-- The last to come has won: the open session, if there is one, is for its
document, and the sessions of all others are cancelled. -/
def LastComeWins (c : Contest) : Prop :=
  ∀ last, c.callers.getLast? = some last →
    (∀ s, c.shop.bench.session = some s → s.document = last.id) ∧
    ∀ (k : Nat) caller n, c.callers[k]? = some caller → k + 1 ≠ c.callers.length →
      caller.session = some n → n ∈ c.shop.bench.fired

/-- In every contest the last to be served wins. Its caller may have been
overtaken by others and still wins; calls that end with a fault do not count.
So the last to come has won where it is the last to be served. -/
theorem last_served_wins {shop : Workshop} (h : Reaches shop c) :
    (∀ k, c.served.getLast? = some k → ∀ s, c.shop.bench.session = some s →
        ∃ caller, c.callers[k]? = some caller ∧ caller.session = some s.number ∧
          s.document = caller.id) ∧
      (∀ (k : Nat) caller n, c.callers[k]? = some caller → caller.session = some n →
        c.served.getLast? ≠ some k → n ∈ c.shop.bench.fired) ∧
      (∀ s, shop.bench.session = some s → c.served ≠ [] → s.number ∈ c.shop.bench.fired) ∧
      (∀ k : Nat, k ∈ c.served ↔ ∃ caller command, c.callers[k]? = some caller ∧
        caller.outcome = some (.ok command)) ∧
      (c.served.getLast? = some (c.callers.length - 1) → c.LastComeWins) := by
  have hsettled := settled_of_reaches h
  have hwinner : ∀ k, c.served.getLast? = some k → ∀ s, c.shop.bench.session = some s →
      ∃ caller, c.callers[k]? = some caller ∧ caller.session = some s.number ∧
        s.document = caller.id := by
    intro k hk s hs
    have hheld : c.shop.bench.holder? = some (s.number, s.document) := by
      simp [Workbench.holder?, hs]
    rcases hsettled.holder k hk with hfree | ⟨caller, n, hcaller, hn, hheld'⟩
    · rw [hfree] at hheld
      cases hheld
    · obtain ⟨rfl, hid⟩ := Prod.mk.inj (Option.some.inj (hheld.symm.trans hheld'))
      exact ⟨caller, hcaller, hn, hid⟩
  have hlosers : ∀ (k : Nat) caller n, c.callers[k]? = some caller → caller.session = some n →
      c.served.getLast? ≠ some k → n ∈ c.shop.bench.fired := by
    intro k caller n hcaller hn hk
    rcases hsettled.fired k caller n hcaller hn with hmem | ⟨hlast, -⟩
    · exact hmem
    · exact absurd hlast hk
  refine ⟨hwinner, hlosers, ?_, hsettled.served, ?_⟩
  · intro s hs hserved
    exact hsettled.first s.number s.document (by simp [Workbench.holder?, hs]) hserved
  · intro hlast last hcome
    rw [List.getLast?_eq_getElem?] at hcome
    refine ⟨fun s hs => ?_, fun k caller n hcaller hk hn => ?_⟩
    · obtain ⟨caller, hcaller, -, hid⟩ := hwinner _ hlast s hs
      obtain rfl := Option.some.inj (hcaller.symm.trans hcome)
      exact hid
    · refine hlosers k caller n hcaller hn fun heq => hk ?_
      have hplace := Option.some.inj (hlast.symm.trans heq)
      have hlt := (List.getElem?_eq_some_iff.1 hcaller).1
      omega

/-! ## A contest that is lost -/

/-- A text with its words. -/
def memo : Document where
  id := 2
  fileName := "b.txt"
  mimeType := "text/plain"
  extractedText := "b"

/-- A PDF without stored text, and that text. -/
def busyStore : Store := { documents := [paper, memo], blobs := [(1, [37])] }

/-- A workshop where both are stored and the text extractor does this. -/
def busyShop (script : Script) : Workshop where
  bench := { store := some busyStore, client := some { model := "m" }
             settings := { model := "m" } }
  site := { tools := { installed := [Tool.textExtractor.name] }
            scripts := [(Tool.textExtractor.name, [script])] }

theorem load_busyStore {w : Workbench} (hstore : w.store = some busyStore) :
    w.load 1 = .ok (paper, [37]) ∧ w.load 2 = .ok (memo, []) := by
  constructor
  · refine Workbench.load_eq (d := paper) hstore rfl rfl ?_ rfl
    rw [String.contains_char_eq]
    decide +kernel
  · refine Workbench.load_eq (d := memo) hstore rfl rfl ?_ rfl
    rw [String.contains_char_eq]
    decide +kernel

/-- The text extractor takes its time. -/
def slow : Script := { ending := .after 5, output := [97] }

/-- The opening of the PDF while its text is awaited. -/
def slowOpening : Opening := ⟨paper, [37], ⟨TextLayer.request "" 30, slow, 0⟩⟩

/-- The PDF has been requested. -/
def waitingContest : Contest where
  shop := (askText paper [37] (busyShop slow)).2
  callers := [{ id := 1, opening := some slowOpening }]

theorem requests_paper : ({ shop := busyShop slow } : Contest).requests 1 = waitingContest := by
  rw [requests_of_load (load_busyStore rfl).1]
  rfl

theorem requests_memo : waitingContest.requests 2 = (waitingContest.joins { id := 2 }).ends 1
    (openWith memo [] (.ok "b") waitingContest.shop).1
    (openWith memo [] (.ok "b") waitingContest.shop).2 := by
  rw [requests_of_load (load_busyStore rfl).2]
  rfl

/-- The PDF is requested first and its text is there last. -/
def overtaken : Contest :=
  ((({ shop := busyShop slow } : Contest).requests 1).requests 2).finishes 0 slowOpening

theorem reaches_overtaken : Reaches (busyShop slow) overtaken := by
  have hrequested : (({ shop := busyShop slow } : Contest).requests 1 |>.requests 2).callers[0]? =
      some { id := 1, opening := some slowOpening } := by
    rw [requests_paper, requests_memo]
    rfl
  have hcome : Reaches (busyShop slow) (({ shop := busyShop slow } : Contest).requests 1) :=
    Relation.ReflTransGen.single (.requests 1)
  exact (hcome.tail (.requests 2)).tail (.finishes hrequested rfl)

theorem overtaken_eq : overtaken.served = [1, 0] ∧ overtaken.callers.length = 2 ∧
    overtaken.callers.all (·.outcome.isSome) ∧ overtaken.shop.bench.holder? = some (2, 1) ∧
    overtaken.callers.map (fun caller => (caller.id, caller.session)) =
      [(1, some 2), (2, some 1)] := by
  unfold overtaken
  rw [requests_paper, requests_memo]
  decide +kernel

/-- The text has been requested. -/
def memoContest : Contest :=
  ({ shop := busyShop unstartable } : Contest).joins { id := 2 } |>.ends 0
    (openWith memo [] (.ok "b") (busyShop unstartable)).1
    (openWith memo [] (.ok "b") (busyShop unstartable)).2

/-- The text is requested first, and for the PDF the text extractor cannot be
started. -/
def refused : Contest := (({ shop := busyShop unstartable } : Contest).requests 2).requests 1

theorem refused_eq : refused.callers.length = 2 ∧ refused.callers.all (·.outcome.isSome) ∧
    refused.shop.bench.holder? = some (1, 2) ∧
    refused.callers.map (fun caller => (caller.id, caller.session)) = [(2, some 1), (1, none)] := by
  have hmemo : ({ shop := busyShop unstartable } : Contest).requests 2 = memoContest := by
    rw [requests_of_load (load_busyStore rfl).2]
    rfl
  have hpaper : memoContest.requests 1 = (memoContest.joins { id := 1 }).ends 1
      (openWith paper [37] (.error (.plain .os "exec failed"))
        (askText paper [37] memoContest.shop).2).1
      (openWith paper [37] (.error (.plain .os "exec failed"))
        (askText paper [37] memoContest.shop).2).2 := by
    rw [requests_of_load (load_busyStore rfl).1]
    rfl
  unfold refused
  rw [hmemo, hpaper]
  decide +kernel

theorem not_lastComeWins {n : Nat} {document id : Int} {session : Option Nat}
    (hholder : c.shop.bench.holder? = some (n, document))
    (hlast : (c.callers.map fun caller => (caller.id, caller.session)).getLast? =
      some (id, session))
    (hne : document ≠ id) : ¬ c.LastComeWins := by
  intro hwins
  rw [List.getLast?_map] at hlast
  obtain ⟨last, hcome, hid⟩ := Option.map_eq_some_iff.1 hlast
  obtain ⟨s, hs, hheld⟩ := Option.map_eq_some_iff.1 hholder
  have hdocument := (hwins last hcome).1 s hs
  apply hne
  rw [← (Prod.mk.inj hheld).2, ← (Prod.mk.inj hid).1]
  exact hdocument

/-- The first to come is served last. -/
theorem last_served_wins_overtaken : Reaches (busyShop slow) overtaken ∧
    overtaken.served = [1, 0] ∧ (∃ s, overtaken.shop.bench.session = some s) ∧
      (∀ s, overtaken.shop.bench.session = some s → s.document = 1) ∧
      1 ∈ overtaken.shop.bench.fired := by
  obtain ⟨hserved, -, -, hholder, hcallers⟩ := overtaken_eq
  obtain ⟨hwinner, hlosers, -⟩ := last_served_wins reaches_overtaken
  obtain ⟨s, hs, -⟩ := Option.map_eq_some_iff.1 hholder
  have hplace : ∀ (k : Nat) x, [((1 : Int), some 2), (2, some 1)][k]? = some x →
      ∃ caller, overtaken.callers[k]? = some caller ∧ (caller.id, caller.session) = x := by
    intro k x hx
    rw [← hcallers, List.getElem?_map] at hx
    exact Option.map_eq_some_iff.1 hx
  refine ⟨reaches_overtaken, hserved, ⟨s, hs⟩, fun s hs => ?_, ?_⟩
  · obtain ⟨caller, hk, -, hid⟩ := hwinner 0 (hserved ▸ rfl) s hs
    obtain ⟨first, hk', hfirst⟩ := hplace 0 _ rfl
    obtain rfl := Option.some.inj (hk'.symm.trans hk)
    exact hid.trans (Prod.mk.inj hfirst).1
  · obtain ⟨last, hk, hlast⟩ := hplace 1 _ rfl
    exact hlosers 1 last 1 hk (Prod.mk.inj hlast).2 (by rw [hserved]; decide)

/-- In one contest both calls end well, and the first to come has cancelled
the session of the last. In another the last to come is refused, and the
session of the first stays. -/
theorem last_come_loses :
    (Reaches (busyShop slow) overtaken ∧ overtaken.callers.length = 2 ∧
        (∀ caller ∈ overtaken.callers, caller.outcome.isSome) ∧ ¬ overtaken.LastComeWins) ∧
      Reaches (busyShop unstartable) refused ∧ refused.callers.length = 2 ∧
        (∀ caller ∈ refused.callers, caller.outcome.isSome) ∧ ¬ refused.LastComeWins := by
  obtain ⟨-, hlength, hended, hholder, hcallers⟩ := overtaken_eq
  obtain ⟨hlength', hended', hholder', hcallers'⟩ := refused_eq
  have hlast := congrArg List.getLast? hcallers
  have hlast' := congrArg List.getLast? hcallers'
  refine ⟨⟨reaches_overtaken, hlength, List.all_eq_true.1 hended, ?_⟩, ?_, hlength',
    List.all_eq_true.1 hended', ?_⟩
  · exact not_lastComeWins hholder hlast (by decide)
  · exact (Relation.ReflTransGen.single (.requests 2)).tail (.requests 1)
  · exact not_lastComeWins hholder' hlast' (by decide)

end Contest
end Intake
